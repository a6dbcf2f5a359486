import Mathlib.Data.Nat.Count
import CortexForge.Concurrent.Identity

/-!
Contract: the order of the slots, and their renumbering for one accelerator.

No slot ever comes back to the free list, so a run gives its slots away in the order of
the array, each with the next id. If the submissions to the other accelerators are left
out, those of one accelerator still find their slots in the same order, but closer
together: a slot moves down by the number of slots before it that went elsewhere.

Owns: the order of allocation over whole runs, the slots a run leaves to one
accelerator, and the renaming of slots, ids and everything that mentions them.
-/

namespace CortexForge.Concurrent

open CortexForge.Foundation

/-! ## The order of allocation -/

/-- The slots below the counter are the ones given away. -/
structure Ordered (dev : Dev) : Prop where
  free : dev.freeTasks = (List.finRange maxTasks).drop dev.nextTaskId.toNat
  ids : ∀ slot : Slot, slot.val < dev.nextTaskId.toNat →
    (dev.tasks slot).id.toNat = slot.val + 1
  fresh : ∀ slot : Slot, dev.nextTaskId.toNat ≤ slot.val → dev.tasks slot = Task.zero

theorem Ordered.initial : Ordered probe where
  free := by
    rw [probe_freeTasks, probe_nextTaskId, UInt32.toNat_zero, List.drop_zero]
  ids := by
    intro slot below
    rw [probe_nextTaskId] at below
    exact absurd below (Nat.not_lt_zero _)
  fresh := fun slot _ => probe_tasks slot

theorem drop_finRange_eq_cons {count : Nat} {slot : Slot} {rest : List Slot}
    (head : (List.finRange maxTasks).drop count = slot :: rest) :
    slot.val = count ∧ rest = (List.finRange maxTasks).drop (count + 1) := by
  have inRange : count < (List.finRange maxTasks).length := by
    by_contra beyond
    rw [List.drop_of_length_le (Nat.not_lt.mp beyond)] at head
    cases head
  rw [List.drop_eq_getElem_cons inRange] at head
  obtain ⟨first, others⟩ := List.cons.inj head
  refine ⟨?_, others.symm⟩
  rw [← first, List.getElem_finRange]
  rfl

theorem mem_drop_finRange {count : Nat} {slot : Slot} :
    slot ∈ (List.finRange maxTasks).drop count ↔ count ≤ slot.val := by
  rw [List.mem_drop_iff_getElem]
  constructor
  · rintro ⟨offset, inRange, rfl⟩
    simp
  · intro beyond
    refine ⟨slot.val - count, ?_, ?_⟩
    · rw [List.length_finRange]
      have := slot.isLt
      omega
    · apply Fin.ext
      simp
      omega

/-- An allocated slot is not on the free list. -/
theorem Ordered.below {trace : List Event} {system : System} (ordered : Ordered system.dev)
    (inv : Inv trace system) {slot : Slot} :
    slot.val < system.dev.nextTaskId.toNat ↔ (ledger trace slot).point ≠ .free := by
  have listed : slot ∈ system.dev.freeTasks ↔ (ledger trace slot).point = .free := by
    refine ⟨inv.point_of_free, fun free => ?_⟩
    refine (inv.partition.mem .freeTasks slot).mpr ?_
    rw [placeOf, free]
    rfl
  rw [ordered.free, mem_drop_finRange] at listed
  rw [ne_eq, ← listed, Nat.not_le]

/-- A step that allocates nothing keeps the order. -/
private theorem Ordered.keep {trace : List Event} {system : System} {event : Event}
    (ordered : Ordered system.dev) (inv : Inv trace system)
    (enabled : ∀ slot, Enabled slot (ledger trace slot) event)
    (notAlloc : ∀ slot taskId desc, event.action ≠ .alloc slot taskId desc) :
    Ordered (event.action.apply system.dev) := by
  obtain ⟨counter, free⟩ :=
    Action.keeps_pool notAlloc (fun slot => (enabled slot).not_free) system.dev
  -- A step touches the contents of a slot only after it has been given away.
  have tasks (slot : Slot) : (event.action.apply system.dev).tasks slot = system.dev.tasks slot ∨
      ((ledger trace slot).point ≠ .free ∧
        ((event.action.apply system.dev).tasks slot).id = (system.dev.tasks slot).id) := by
    rw [Action.apply_tasks]
    split
    next about =>
      obtain ⟨actor, action⟩ := event
      cases action with
      | alloc target taskId desc => exact absurd rfl (notAlloc target taskId desc)
      | free target => exact absurd rfl (enabled target).not_free
      | store target write =>
          cases about
          refine Or.inr ⟨?_, write.apply_id _⟩
          intro isFree
          cases enabled slot with
          | elsewhere _ other => exact absurd rfl other
          | _ => simp_all [Point.Visible, Point.state]
      | _ => exact Or.inl rfl
    next => exact Or.inl rfl
  constructor
  · rw [free, counter]
    exact ordered.free
  · intro slot below
    rw [counter] at below
    rcases tasks slot with same | ⟨-, sameId⟩
    · rw [same]
      exact ordered.ids slot below
    · rw [sameId]
      exact ordered.ids slot below
  · intro slot beyond
    rw [counter] at beyond
    rcases tasks slot with same | ⟨allocated, -⟩
    · rw [same]
      exact ordered.fresh slot beyond
    · exact absurd ((ordered.below inv).mpr allocated) (Nat.not_lt.mpr beyond)

/-- An allocation gives away the first slot that has not been given away. -/
theorem Ordered.alloc {dev : Dev} {slot : Slot} {rest : List Slot} (ordered : Ordered dev)
    (free : dev.freeTasks = slot :: rest)
    (next : (dev.nextTaskId + 1).toNat = dev.nextTaskId.toNat + 1) (desc : TaskDesc) :
    Ordered ((Action.alloc slot (dev.nextTaskId + 1) desc).apply dev) := by
  obtain ⟨isHead, others⟩ := drop_finRange_eq_cons (ordered.free.symm.trans free)
  constructor
  · show (dev.freeTasks).erase slot = _
    rw [free, List.erase_cons_head, others]
    exact congrArg (List.drop · (List.finRange maxTasks)) next.symm
  · intro other below
    replace below : other.val < (dev.nextTaskId + 1).toNat := below
    by_cases same : other = slot
    · subst same
      simp only [Action.apply, Function.update_self]
      rw [next, isHead]
    · have : other.val ≠ slot.val := fun equal => same (Fin.ext equal)
      simp only [Action.apply, Function.update_of_ne same]
      exact ordered.ids other (by omega)
  · intro other beyond
    replace beyond : (dev.nextTaskId + 1).toNat ≤ other.val := beyond
    have same : other ≠ slot := by
      rintro rfl
      omega
    simp only [Action.apply, Function.update_of_ne same]
    exact ordered.fresh other (by omega)

/-- In every reachable state the slots have been given away in order. -/
theorem ordered_of_run {kernel : Kernel} {trace : List Event} {system : System}
    (run : (machine kernel).Run trace system) : Ordered system.dev := by
  refine run.invariant (fun _ system => Ordered system.dev) ?_ ?_
  · rintro _ ⟨ticks, rfl⟩
    exact Ordered.initial
  · intro trace system label event next run ordered taken
    have stepped := stepped_of_step taken
    have inv := inv_of_run run
    rw [stepped.dev]
    rcases stepped.alloc_or_not with ⟨thread, slot, rest, desc, free, rfl⟩ | notAlloc
    · exact ordered.alloc free ((ids_of_run run).next_toNat free) desc
    · exact ordered.keep inv (inv.enabled stepped) notAlloc

/-! ## The slots of one accelerator -/

section Rank

variable (mine : Slot → Bool)

/-- The slot of this number is one of the accelerator's. -/
def Mine (index : Nat) : Prop := ∃ inRange : index < maxTasks, mine ⟨index, inRange⟩ = true

instance : DecidablePred (Mine mine) := fun _ => inferInstanceAs (Decidable (∃ _, _))

/-- How many of the slots before this number are the accelerator's. -/
def rank (index : Nat) : Nat := Nat.count (Mine mine) index

variable {mine}

@[simp] theorem rank_zero : rank mine 0 = 0 := Nat.count_zero _

theorem mine_val {slot : Slot} : Mine mine slot.val ↔ mine slot = true := by
  constructor
  · rintro ⟨_, own⟩
    exact own
  · intro own
    exact ⟨slot.isLt, own⟩

theorem rank_le (index : Nat) : rank mine index ≤ index := Nat.count_le _

theorem rank_mono {first second : Nat} (le : first ≤ second) :
    rank mine first ≤ rank mine second :=
  Nat.count_monotone _ le

theorem rank_succ_own {slot : Slot} (own : mine slot = true) :
    rank mine (slot.val + 1) = rank mine slot.val + 1 := by
  rw [rank, Nat.count_succ, if_pos (mine_val.mpr own)]
  rfl

theorem rank_succ_foreign {slot : Slot} (foreign : mine slot = false) :
    rank mine (slot.val + 1) = rank mine slot.val := by
  rw [rank, Nat.count_succ, if_neg]
  · rfl
  · rw [mine_val, foreign]
    exact Bool.false_ne_true

theorem rank_injective {first second : Slot} (ownFirst : mine first = true)
    (ownSecond : mine second = true) (same : rank mine first.val = rank mine second.val) :
    first = second :=
  Fin.ext (Nat.count_injective (mine_val.mpr ownFirst) (mine_val.mpr ownSecond) same)

end Rank

/-- The slot a run leaves to an accelerator: no submission to another one was given it. -/
def ownSlots (accel : AccelIndex) (trace : List Event) (slot : Slot) : Bool :=
  decide ((ledger trace slot).point = .free) ||
    decide ((ledger trace slot).desc.accelType.toNat = accel.val)

/-- `mine` is right about every slot given away so far. -/
def Settles (accel : AccelIndex) (mine : Slot → Bool) (trace : List Event) : Prop :=
  ∀ slot, (ledger trace slot).point ≠ .free →
    (mine slot = true ↔ (ledger trace slot).desc.accelType.toNat = accel.val)

theorem settles_ownSlots (accel : AccelIndex) (trace : List Event) :
    Settles accel (ownSlots accel trace) trace := by
  intro slot allocated
  simp [ownSlots, allocated]

/-- What is right in the end was right before. -/
theorem Settles.before {accel : AccelIndex} {mine : Slot → Bool} {trace : List Event}
    {event : Event} (settles : Settles accel mine (trace ++ [event]))
    (enabled : ∀ slot, Enabled slot (ledger trace slot) event) : Settles accel mine trace := by
  intro slot allocated
  obtain ⟨stillAllocated, -, sameDesc⟩ := (enabled slot).keeps_submission allocated
  have settled := settles slot
  rw [ledger_snoc, sameDesc] at settled
  exact settled stillAllocated

/-! ## Renaming -/

section Rename

variable (mine : Slot → Bool)

def renameSlot (slot : Slot) : Slot :=
  ⟨rank mine slot.val, Nat.lt_of_le_of_lt (rank_le slot.val) slot.isLt⟩

/-- The id belongs to a slot of another accelerator. -/
def ForeignId (taskId : UInt32) : Prop :=
  ∃ slot : Slot, mine slot = false ∧ taskId.toNat = slot.val + 1

instance (taskId : UInt32) : Decidable (ForeignId mine taskId) :=
  inferInstanceAs (Decidable (∃ _ : Slot, _))

/-- An id follows its slot; a number that is no id of a slot stays. -/
def renameId (taskId : UInt32) : UInt32 :=
  if 0 < taskId.toNat ∧ taskId.toNat ≤ maxTasks then
    UInt32.ofNat (rank mine (taskId.toNat - 1) + 1)
  else taskId

/-- A task keeps everything but its id. -/
def renameTask (task : Task) : Task := { task with id := renameId mine task.id }

/-- An accelerator keeps everything but the slots on its lists. -/
def renameAccel (accel : Accel) : Accel :=
  { accel with
    taskQueue := accel.taskQueue.map (renameSlot mine)
    activeTasks := accel.activeTasks.map (renameSlot mine) }

def renameStatus (status : TaskStatus) : TaskStatus :=
  { status with taskId := renameId mine status.taskId }

def Call.rename : Call → Call
  | .query taskId => .query (renameId mine taskId)
  | .cancel taskId => .cancel (renameId mine taskId)
  | .submit desc => .submit desc
  | .accelInfo info => .accelInfo info

def SubmitPhase.rename : SubmitPhase → SubmitPhase
  | .alloc => .alloc
  | .fill slot => .fill (renameSlot mine slot)
  | .check slot => .check (renameSlot mine slot)
  | .writePending slot => .writePending (renameSlot mine slot)
  | .readJiffies slot => .readJiffies (renameSlot mine slot)
  | .writeSubmitJiffies slot stamp => .writeSubmitJiffies (renameSlot mine slot) stamp
  | .enqueue slot => .enqueue (renameSlot mine slot)
  | .wakeUp slot => .wakeUp (renameSlot mine slot)
  | .readId slot => .readId (renameSlot mine slot)
  | .copyOut taskId => .copyOut (renameId mine taskId)
  | .rollback slot ret => .rollback (renameSlot mine slot) ret

def QueryPhase.rename : QueryPhase → QueryPhase
  | .scan index => .scan (rank mine index)
  | .checkState slot => .checkState (renameSlot mine slot)
  | .readId slot => .readId (renameSlot mine slot)
  | .readState slot status => .readState (renameSlot mine slot) (renameStatus mine status)
  | .readJiffies slot status =>
      .readJiffies (renameSlot mine slot) (renameStatus mine status)
  | .readSubmit slot status complete =>
      .readSubmit (renameSlot mine slot) (renameStatus mine status) complete
  | .readComplete slot status submit =>
      .readComplete (renameSlot mine slot) (renameStatus mine status) submit
  | .readError slot status => .readError (renameSlot mine slot) (renameStatus mine status)
  | .copyOut slot status => .copyOut (renameSlot mine slot) (renameStatus mine status)

def CancelPhase.rename : CancelPhase → CancelPhase
  | .scan index => .scan (rank mine index)
  | .checkState slot => .checkState (renameSlot mine slot)
  | .writeState slot => .writeState (renameSlot mine slot)
  | .writeError slot => .writeError (renameSlot mine slot)
  | .completeAll slot => .completeAll (renameSlot mine slot)

/-- An accepted SUBMIT answers with an id; a refused one returns the descriptor as it
came. -/
def Reply.rename : Reply → Reply
  | .submit ret desc =>
      .submit ret (if ret = 0 then { desc with taskId := renameId mine desc.taskId } else desc)
  | .query taskId ret answer =>
      .query (renameId mine taskId) ret
        (answer.map fun found => (renameSlot mine found.1, renameStatus mine found.2))
  | .cancel taskId ret => .cancel (renameId mine taskId) ret
  | .accelInfo ret info => .accelInfo ret info

def ClientPc.rename : ClientPc → ClientPc
  | .idle => .idle
  | .submit desc accel phase => .submit desc accel (phase.rename mine)
  | .query taskId phase => .query (renameId mine taskId) (phase.rename mine)
  | .cancel taskId phase => .cancel (renameId mine taskId) (phase.rename mine)
  | .accelInfo info accel => .accelInfo info accel
  | .copyInfo info => .copyInfo info
  | .returned reply => .returned (reply.rename mine)

def WorkerPc.rename : WorkerPc → WorkerPc
  | .exec slot phase => .exec (renameSlot mine slot) phase
  | pc => pc

def Action.rename : Action → Action
  | .tau => .tau
  | .alloc slot taskId desc => .alloc (renameSlot mine slot) (renameId mine taskId) desc
  | .free slot => .free (renameSlot mine slot)
  | .store slot write => .store (renameSlot mine slot) write
  | .enqueue accel slot => .enqueue accel (renameSlot mine slot)
  | .dequeue accel slot => .dequeue accel (renameSlot mine slot)
  | .unlink accel slot => .unlink accel (renameSlot mine slot)
  | .touch accel update => .touch accel update

variable {mine}

theorem renameSlot_injOn {first second : Slot} (ownFirst : mine first = true)
    (ownSecond : mine second = true)
    (same : renameSlot mine first = renameSlot mine second) : first = second :=
  rank_injective ownFirst ownSecond (congrArg Fin.val same)

@[simp] theorem renameId_zero : renameId mine 0 = 0 := rfl

theorem renameId_toNat {taskId : UInt32} {slot : Slot} (isId : taskId.toNat = slot.val + 1) :
    (renameId mine taskId).toNat = rank mine slot.val + 1 := by
  have small : rank mine slot.val + 1 < UInt32.size := by
    have := @rank_le mine slot.val
    have := slot.isLt
    have : maxTasks < UInt32.size := by decide
    omega
  have inRange : 0 < taskId.toNat ∧ taskId.toNat ≤ maxTasks := by
    have := slot.isLt
    omega
  rw [renameId, if_pos inRange, isId, Nat.add_sub_cancel]
  exact UInt32.toNat_ofNat_of_lt small

/-- An id of a slot of the accelerator, or no id of a slot at all. -/
theorem not_foreignId_cases {taskId : UInt32} (own : ¬ ForeignId mine taskId) :
    (∃ slot : Slot, mine slot = true ∧ taskId.toNat = slot.val + 1) ∨
      (renameId mine taskId = taskId ∧ (taskId.toNat = 0 ∨ maxTasks < taskId.toNat)) := by
  by_cases inRange : 0 < taskId.toNat ∧ taskId.toNat ≤ maxTasks
  · left
    have isSlot : taskId.toNat - 1 < maxTasks := by omega
    refine ⟨⟨taskId.toNat - 1, isSlot⟩, ?_, by simp; omega⟩
    cases owned : mine ⟨taskId.toNat - 1, isSlot⟩ with
    | true => rfl
    | false => exact absurd ⟨_, owned, by simp; omega⟩ own
  · right
    exact ⟨by rw [renameId, if_neg inRange], by omega⟩

/-- Different ids stay different, those of the other accelerators apart. -/
theorem renameId_injOn {first second : UInt32} (ownFirst : ¬ ForeignId mine first)
    (ownSecond : ¬ ForeignId mine second)
    (same : renameId mine first = renameId mine second) : first = second := by
  have bound (slot : Slot) : rank mine slot.val + 1 ≤ maxTasks := by
    have := @rank_le mine slot.val
    have := slot.isLt
    omega
  have sameNat := congrArg UInt32.toNat same
  apply UInt32.toNat_inj.mp
  rcases not_foreignId_cases ownFirst with ⟨slot, own, isId⟩ | ⟨fixed, outside⟩
  · rcases not_foreignId_cases ownSecond with ⟨slot', own', isId'⟩ | ⟨fixed', outside'⟩
    · rw [renameId_toNat isId, renameId_toNat isId'] at sameNat
      rw [isId, isId', rank_injective own own' (by omega)]
    · rw [renameId_toNat isId, fixed'] at sameNat
      have := bound slot
      omega
  · rcases not_foreignId_cases ownSecond with ⟨slot', own', isId'⟩ | ⟨fixed', outside'⟩
    · rw [renameId_toNat isId', fixed] at sameNat
      have := bound slot'
      omega
    · rw [fixed, fixed'] at sameNat
      exact sameNat

end Rename

end CortexForge.Concurrent
