import CortexForge.Concurrent.Renaming
import CortexForge.Concurrent.Fifo
import CortexForge.Concurrent.Solo
import CortexForge.Foundation.Simulation

/-!
Contract: the device and the threads as one accelerator sees them.

A reduced device mirrors a device if it holds the tasks of one accelerator in the same
order and nothing else. A step of a thread on behalf of the accelerator has the same
effect on both, up to the renaming; a step on behalf of another one leaves the mirror
image as it is.

Owns: mirrored devices and their preservation by both kinds of action.
-/

namespace CortexForge.Concurrent

open CortexForge.Foundation

/-- The reduced device holds what the device holds for one accelerator, under new
slots and ids. Of the other accelerators it knows whether they are to run and whether
their thread has been stopped. -/
structure Mirrors (accel : AccelIndex) (mine : Slot → Bool) (dev reduced : Dev) : Prop where
  counter : reduced.nextTaskId.toNat = rank mine dev.nextTaskId.toNat
  tasks : ∀ slot, mine slot = true →
    reduced.tasks (renameSlot mine slot) = renameTask mine (dev.tasks slot)
  own : reduced.accelerators accel = renameAccel mine (dev.accelerators accel)
  running : ∀ other, (reduced.accelerators other).running = (dev.accelerators other).running
  workerThread : ∀ other,
    (reduced.accelerators other).workerThread = (dev.accelerators other).workerThread

/-- An accelerator with empty lists has nothing to rename. -/
theorem renameAccel_of_empty {mine : Slot → Bool} {record : Accel} (queue : record.taskQueue = [])
    (active : record.activeTasks = []) : renameAccel mine record = record := by
  unfold renameAccel
  rw [queue, active, List.map_nil]
  cases record
  cases queue
  cases active
  rfl

theorem Mirrors.initial (accel : AccelIndex) (mine : Slot → Bool) :
    Mirrors accel mine probe probe where
  counter := by
    rw [probe_nextTaskId, UInt32.toNat_zero, rank_zero]
  tasks := by
    intro slot _
    rw [probe_tasks, probe_tasks, renameTask]
    rfl
  own := (renameAccel_of_empty rfl rfl).symm
  running := fun _ => rfl
  workerThread := fun _ => rfl

/-- The action serves the accelerator, or is an update that both devices take. -/
def Action.Owns (accel : AccelIndex) (mine : Slot → Bool) : Action → Prop
  | .tau | .touch _ _ => True
  | .store slot _ => mine slot = true
  | .enqueue target slot | .dequeue target slot | .unlink target slot =>
      target = accel ∧ mine slot = true
  | .alloc _ _ _ | .free _ => False

/-- The action serves another accelerator. -/
def Action.Foreign (accel : AccelIndex) (mine : Slot → Bool) : Action → Prop
  | .tau => True
  | .touch target update =>
      target ≠ accel ∧ update ≠ .clearRunning ∧ update ≠ .clearThread
  | .store slot _ => mine slot = false
  | .enqueue target _ | .dequeue target _ | .unlink target _ => target ≠ accel
  | .alloc _ _ _ | .free _ => False

section Actions

variable {accel : AccelIndex} {mine : Slot → Bool} {dev reduced : Dev} {action : Action}

theorem map_erase_own {slots : List Slot} {slot : Slot} (own : mine slot = true)
    (listed : ∀ other ∈ slots, mine other = true) :
    (slots.map (renameSlot mine)).erase (renameSlot mine slot) =
      (slots.erase slot).map (renameSlot mine) := by
  induction slots with
  | nil => rfl
  | cons head rest inductionHypothesis =>
      by_cases isHead : head = slot
      · subst isHead
        simp
      · have different : renameSlot mine head ≠ renameSlot mine slot := by
          intro same
          exact isHead (renameSlot_injOn (listed head List.mem_cons_self) own same)
        rw [List.map_cons, List.erase_cons_tail (by simpa using different),
          List.erase_cons_tail (by simpa using isHead), List.map_cons,
          inductionHypothesis fun other member => listed other (List.mem_cons_of_mem _ member)]

@[simp] theorem Action.slot?_rename (action : Action) :
    (action.rename mine).slot? = action.slot?.map (renameSlot mine) := by
  cases action <;> rfl

theorem Touch.apply_renameAccel (update : Touch) (record : Accel) :
    update.apply (renameAccel mine record) = renameAccel mine (update.apply record) := by
  cases update <;> rfl

theorem Store.apply_renameTask (write : Store) (task : Task) :
    write.apply (renameTask mine task) = renameTask mine (write.apply task) := by
  cases write <;> rfl

/-- An action for the accelerator has the same effect on both devices. -/
theorem Mirrors.apply (mirrors : Mirrors accel mine dev reduced) (owns : action.Owns accel mine)
    (queued : ∀ slot ∈ (dev.accelerators accel).taskQueue, mine slot = true)
    (active : ∀ slot ∈ (dev.accelerators accel).activeTasks, mine slot = true) :
    Mirrors accel mine (action.apply dev) ((action.rename mine).apply reduced) where
  counter := by
    rw [Action.apply_nextTaskId, Action.apply_nextTaskId]
    cases action with
    | alloc slot taskId desc => exact owns.elim
    | _ => exact mirrors.counter
  tasks := by
    intro slot own
    rw [Action.apply_tasks, Action.apply_tasks, Action.slot?_rename]
    cases action with
    | alloc target taskId desc => exact owns.elim
    | free target => exact owns.elim
    | store target write =>
        by_cases same : target = slot
        · subst same
          simp only [Action.slot?, Option.map_some, ↓reduceIte, Action.rename, Action.onTask]
          rw [mirrors.tasks target own, Store.apply_renameTask]
        · have different : renameSlot mine target ≠ renameSlot mine slot := by
            intro sameName
            exact same (renameSlot_injOn owns own sameName)
          simpa [Action.slot?, same, different] using mirrors.tasks slot own
    | _ => simpa [Action.rename, Action.onTask] using mirrors.tasks slot own
  own := by
    rw [Action.apply_accelerators, Action.apply_accelerators, mirrors.own]
    cases action with
    | alloc slot taskId desc => exact owns.elim
    | free slot => exact owns.elim
    | tau => rfl
    | store slot write => rfl
    | enqueue target slot =>
        obtain ⟨rfl, -⟩ := owns
        simp [Action.rename, Action.onAccel, renameAccel]
    | dequeue target slot =>
        obtain ⟨rfl, own⟩ := owns
        simp [Action.rename, Action.onAccel, renameAccel, map_erase_own own queued]
    | unlink target slot =>
        obtain ⟨rfl, own⟩ := owns
        simp [Action.rename, Action.onAccel, renameAccel, map_erase_own own active]
    | touch target update =>
        by_cases same : target = accel
        · simp [Action.rename, Action.onAccel, same, Touch.apply_renameAccel]
        · simp [Action.rename, Action.onAccel, same]
  running := by
    intro other
    rw [Action.apply_running, Action.apply_running, mirrors.running]
    cases action <;> rfl
  workerThread := by
    intro other
    rw [Action.apply_workerThread, Action.apply_workerThread, mirrors.workerThread]
    cases action <;> rfl

/-- An action for another accelerator leaves the mirror image as it is. -/
theorem Mirrors.skip (mirrors : Mirrors accel mine dev reduced)
    (foreign : action.Foreign accel mine) : Mirrors accel mine (action.apply dev) reduced where
  counter := by
    rw [Action.apply_nextTaskId]
    cases action with
    | alloc slot taskId desc => exact foreign.elim
    | _ => exact mirrors.counter
  tasks := by
    intro slot own
    rw [Action.apply_tasks]
    cases action with
    | alloc target taskId desc => exact foreign.elim
    | free target => exact foreign.elim
    | store target write =>
        have different : target ≠ slot := by
          rintro rfl
          rw [Action.Foreign, own] at foreign
          cases foreign
        simpa [Action.slot?, different] using mirrors.tasks slot own
    | _ => simpa [Action.onTask] using mirrors.tasks slot own
  own := by
    rw [Action.apply_accelerators, mirrors.own]
    cases action with
    | alloc slot taskId desc => exact foreign.elim
    | free slot => exact foreign.elim
    | tau => rfl
    | store slot write => rfl
    | touch target update => rw [Action.onAccel, if_neg foreign.1]
    | enqueue target slot => rw [Action.onAccel, if_neg foreign]
    | dequeue target slot => rw [Action.onAccel, if_neg foreign]
    | unlink target slot => rw [Action.onAccel, if_neg foreign]
  running := by
    intro other
    rw [Action.apply_running, mirrors.running, if_neg]
    rintro rfl
    exact foreign.2.1 rfl
  workerThread := by
    intro other
    rw [Action.apply_workerThread, mirrors.workerThread, if_neg]
    rintro rfl
    exact foreign.2.2 rfl

/-! ### Allocation -/

/-- The counter does not wrap before the slots run out. -/
theorem Ordered.next_toNat (ordered : Ordered dev) {slot : Slot} {rest : List Slot}
    (free : dev.freeTasks = slot :: rest) :
    slot.val = dev.nextTaskId.toNat ∧ (dev.nextTaskId + 1).toNat = slot.val + 1 := by
  obtain ⟨isHead, -⟩ := drop_finRange_eq_cons (ordered.free.symm.trans free)
  refine ⟨isHead, ?_⟩
  have small : slot.val + 1 < UInt32.size := by
    have := slot.isLt
    have : maxTasks < UInt32.size := by decide
    omega
  rw [UInt32.toNat_add, ← isHead]
  exact Nat.mod_eq_of_lt small

/-- An allocation for the accelerator finds its slot under the new name. -/
theorem Mirrors.alloc_own (mirrors : Mirrors accel mine dev reduced) (ordered : Ordered dev)
    (orderedReduced : Ordered reduced) {slot : Slot} {rest : List Slot}
    (free : dev.freeTasks = slot :: rest) (own : mine slot = true) (desc : TaskDesc) :
    (∃ others, reduced.freeTasks = renameSlot mine slot :: others) ∧
      Mirrors accel mine ((Action.alloc slot (dev.nextTaskId + 1) desc).apply dev)
        ((Action.alloc (renameSlot mine slot) (reduced.nextTaskId + 1) desc).apply reduced) := by
  obtain ⟨isHead, next⟩ := ordered.next_toNat free
  have counter : reduced.nextTaskId.toNat = (renameSlot mine slot).val := by
    rw [mirrors.counter, ← isHead]
    rfl
  have inRange : reduced.nextTaskId.toNat < (List.finRange maxTasks).length := by
    rw [counter, List.length_finRange]
    exact (renameSlot mine slot).isLt
  have head : reduced.freeTasks = renameSlot mine slot ::
      (List.finRange maxTasks).drop (reduced.nextTaskId.toNat + 1) := by
    rw [orderedReduced.free, List.drop_eq_getElem_cons inRange, List.getElem_finRange]
    congr 1
    exact Fin.ext counter
  obtain ⟨-, nextReduced⟩ := orderedReduced.next_toNat head
  have sameId : renameId mine (dev.nextTaskId + 1) = reduced.nextTaskId + 1 := by
    apply UInt32.toNat_inj.mp
    rw [renameId_toNat next, nextReduced]
    rfl
  refine ⟨⟨_, head⟩, ?_, ?_, mirrors.own, mirrors.running, mirrors.workerThread⟩
  · show (reduced.nextTaskId + 1).toNat = rank mine (dev.nextTaskId + 1).toNat
    rw [next, nextReduced, rank_succ_own own]
    rfl
  · intro other ownOther
    by_cases same : other = slot
    · subst same
      simp only [Action.apply, Function.update_self]
      rw [renameTask, sameId]
    · have different : renameSlot mine other ≠ renameSlot mine slot := by
        intro sameName
        exact same (renameSlot_injOn ownOther own sameName)
      simp only [Action.apply, Function.update_of_ne same, Function.update_of_ne different]
      exact mirrors.tasks other ownOther

/-- An allocation for another accelerator moves no slot of this one. -/
theorem Mirrors.alloc_foreign (mirrors : Mirrors accel mine dev reduced) (ordered : Ordered dev)
    {slot : Slot} {rest : List Slot} (free : dev.freeTasks = slot :: rest)
    (foreign : mine slot = false) (desc : TaskDesc) :
    Mirrors accel mine ((Action.alloc slot (dev.nextTaskId + 1) desc).apply dev) reduced := by
  obtain ⟨isHead, next⟩ := ordered.next_toNat free
  refine ⟨?_, ?_, mirrors.own, mirrors.running, mirrors.workerThread⟩
  · show reduced.nextTaskId.toNat = rank mine (dev.nextTaskId + 1).toNat
    rw [next, rank_succ_foreign foreign, isHead, mirrors.counter]
  · intro other own
    have different : other ≠ slot := by
      rintro rfl
      rw [own] at foreign
      cases foreign
    simp only [Action.apply, Function.update_of_ne different]
    exact mirrors.tasks other own

end Actions

/-! ## Workers -/

section Workers

variable {accel : AccelIndex} {mine : Slot → Bool} {dev reduced : Dev} {kernel : Kernel}
  {now : UInt64} {expired : Bool} {action : Action}

/-- The worker's loop over a task is the same under new names. -/
theorem execStep_rename (kernel : Kernel) (now : UInt64)
    (mirrors : Mirrors accel mine dev reduced) {slot : Slot} (own : mine slot = true)
    (phase : WorkPhase) :
    execStep kernel reduced now accel (renameSlot mine slot) phase =
        ((execStep kernel dev now accel slot phase).1.rename mine,
          (execStep kernel dev now accel slot phase).2.rename mine) ∧
      (execStep kernel dev now accel slot phase).1.Owns accel mine := by
  have task := mirrors.tasks slot own
  cases phase with
  | testTimeout =>
      simp only [execStep, task, renameTask]
      split <;> exact ⟨rfl, trivial⟩
  | testClock timeout start =>
      simp only [execStep]
      split <;> exact ⟨rfl, trivial⟩
  | testState timeout start =>
      simp only [execStep, task, renameTask]
      split <;> exact ⟨rfl, trivial⟩
  | testStop timeout start =>
      simp only [execStep, mirrors.own, renameAccel]
      split <;> exact ⟨rfl, trivial⟩
  | writeRunning => exact ⟨rfl, own⟩
  | writeCompleteJiffies stamp => exact ⟨rfl, own⟩
  | writeComplete => exact ⟨rfl, own⟩
  | writeError => exact ⟨rfl, own⟩
  | completeAll => exact ⟨rfl, own⟩
  | unlink => exact ⟨rfl, rfl, own⟩
  | _ => exact ⟨rfl, trivial⟩

/-- The accelerator's own worker takes the same step on both devices. -/
theorem workerStep_rename (mirrors : Mirrors accel mine dev reduced) {pc next : WorkerPc}
    (queued : ∀ slot ∈ (dev.accelerators accel).taskQueue, mine slot = true)
    (executing : ∀ slot phase, pc = .exec slot phase → mine slot = true)
    (taken : workerStep kernel dev now expired accel pc = some (action, next)) :
    workerStep kernel reduced now expired accel (pc.rename mine) =
        some (action.rename mine, next.rename mine) ∧
      action.Owns accel mine := by
  cases pc with
  | exec slot phase =>
      simp only [workerStep, Option.some.injEq] at taken
      obtain ⟨step, owns⟩ :=
        execStep_rename kernel now mirrors (executing slot phase rfl) phase
      rw [taken] at step owns
      exact ⟨congrArg some step, owns⟩
  | dequeue =>
      simp only [workerStep, WorkerPc.rename, mirrors.own, renameAccel] at taken ⊢
      cases queue : (dev.accelerators accel).taskQueue with
      | nil =>
          rw [queue] at taken
          cases taken
          exact ⟨rfl, trivial⟩
      | cons slot rest =>
          rw [queue] at taken
          cases taken
          exact ⟨rfl, rfl, queued slot (by rw [queue]; exact List.mem_cons_self)⟩
  | testQueue =>
      simp only [workerStep, WorkerPc.rename, mirrors.own, renameAccel,
        List.isEmpty_map] at taken ⊢
      split at taken <;> cases taken <;> simp_all [Action.rename, Action.Owns]
  | asleep =>
      simp only [workerStep, WorkerPc.rename, mirrors.own, renameAccel] at taken ⊢
      split at taken
      · cases taken
        simp_all [Action.rename, Action.Owns]
      · split at taken <;> cases taken
        simp_all [Action.rename, Action.Owns]
  | loop =>
      simp only [workerStep, WorkerPc.rename, mirrors.running] at taken ⊢
      split at taken <;> cases taken <;> simp_all [Action.rename, Action.Owns]
  | testRunning =>
      simp only [workerStep, WorkerPc.rename, mirrors.running] at taken ⊢
      split at taken <;> cases taken <;> simp_all [Action.rename, Action.Owns]
  | recheck =>
      simp only [workerStep, WorkerPc.rename, mirrors.running] at taken ⊢
      split at taken <;> cases taken <;> simp_all [Action.rename, Action.Owns]
  | schedule =>
      simp only [workerStep, WorkerPc.rename, mirrors.own, renameAccel] at taken ⊢
      split at taken <;> cases taken <;> simp_all [Action.rename, Action.Owns]
  | prepare =>
      cases taken
      exact ⟨rfl, trivial⟩
  | finishWait =>
      cases taken
      exact ⟨rfl, trivial⟩
  | exited => cases taken

/-- The worker is at the end of its thread function: told to stop, it leaves. -/
def Leaves (dev : Dev) (accel : AccelIndex) (pc : WorkerPc) : Prop :=
  (pc = .loop ∨ pc = .recheck) ∧ (dev.accelerators accel).running = false

/-- The worker of another accelerator does nothing for this one. -/
theorem workerStep_foreign {other : AccelIndex} {pc next : WorkerPc} (different : other ≠ accel)
    (executing : ∀ slot phase, pc = .exec slot phase → mine slot = false)
    (taken : workerStep kernel dev now expired other pc = some (action, next)) :
    action.Foreign accel mine ∧ pc ≠ .exited ∧ (next = .exited ↔ Leaves dev other pc) := by
  cases workerTaken_of_step taken with
  | exec slot phase =>
      have foreign := executing slot phase rfl
      cases phase <;> simp only [execStep] <;> (try split) <;>
        simp [Action.Foreign, Leaves, different, foreign]
  | _ => simp_all [Action.Foreign, Leaves]

end Workers

/-! ## Clients -/

/-- The thread is outside of every call. -/
def ClientPc.Resting (pc : ClientPc) : Prop := pc = .idle ∨ ∃ reply, pc = .returned reply

/-- The thread is in a call that serves another accelerator: a SUBMIT to it, or a lookup
of one of its tasks. -/
def ClientPc.Foreign (accel : AccelIndex) (mine : Slot → Bool) : ClientPc → Prop
  | .submit _ target _ => target ≠ accel
  | .query taskId _ | .cancel taskId _ => ForeignId mine taskId
  | .idle | .accelInfo _ _ | .copyInfo _ | .returned _ => False

/-- The submission holds a slot of the accelerator, or its id. -/
def SubmitPhase.Owns (mine : Slot → Bool) : SubmitPhase → Prop
  | .fill slot | .check slot | .writePending slot | .readJiffies slot
  | .writeSubmitJiffies slot _ | .enqueue slot | .wakeUp slot | .readId slot => mine slot = true
  | .copyOut _ => True
  | .alloc | .rollback _ _ => False

/-- The lookup stands at a slot of the accelerator, if it stands at any. -/
def Lookup.Owns (mine : Slot → Bool) : Lookup → Prop
  | .scan _ => True
  | .check slot | .found slot => mine slot = true

/-- The thread is outside of every call, or in one that both runs make. -/
def ClientPc.Owns (accel : AccelIndex) (mine : Slot → Bool) : ClientPc → Prop
  | .submit _ target phase => target = accel ∧ phase.Owns mine
  | .query taskId phase => ¬ ForeignId mine taskId ∧ phase.lookup.Owns mine
  | .cancel taskId phase => ¬ ForeignId mine taskId ∧ phase.lookup.Owns mine
  | .idle | .accelInfo _ _ | .returned _ => True
  | .copyInfo _ => False

/-- The same lookup, about to load the id of a slot. -/
def ClientPc.scanAt (index : Nat) : ClientPc → ClientPc
  | .query taskId _ => .query taskId (.scan index)
  | .cancel taskId _ => .cancel taskId (.scan index)
  | pc => pc

/-- Where a thread of the reduced run is, by where it is in the run.

A thread in a call that is left out rests. A SUBMIT to the accelerator is made once a
slot is there for it. A lookup that stands at a slot of another accelerator, which only a
lookup of id 0 can, has not passed this slot. -/
inductive ClientMirrors (accel : AccelIndex) (mine : Slot → Bool) : ClientPc → ClientPc → Prop
  | own {pc : ClientPc} (owns : pc.Owns accel mine) : ClientMirrors accel mine pc (pc.rename mine)
  | deleted {pc reduced : ClientPc} (foreign : pc.Foreign accel mine)
      (resting : reduced.Resting) : ClientMirrors accel mine pc reduced
  | waiting (desc : TaskDesc) {reduced : ClientPc} (resting : reduced.Resting) :
      ClientMirrors accel mine (.submit desc accel .alloc) reduced
  | answered {pc reduced : ClientPc} (resting : pc.Resting) (restingReduced : reduced.Resting)
      (notAccepted : ∀ desc, pc = .returned (.submit 0 desc) →
        desc.accelType.toNat ≠ accel.val) : ClientMirrors accel mine pc reduced
  | astray {pc : ClientPc} {taskId : UInt32} {look : Lookup} {slot : Slot}
      (looking : pc.lookup = some (taskId, look))
      (standing : look = .check slot ∨ look = .found slot)
      (own : ¬ ForeignId mine taskId) (foreign : mine slot = false) :
      ClientMirrors accel mine pc ((pc.scanAt slot.val).rename mine)
  | info (info reducedInfo : AccelInfo) :
      ClientMirrors accel mine (.copyInfo info) (.copyInfo reducedInfo)

section Clients

variable {accel : AccelIndex} {mine : Slot → Bool} {dev reduced : Dev} {kernel : Kernel}
  {now : UInt64}

/-- The id in a slot of the accelerator is not foreign. -/
theorem Ordered.not_foreignId (ordered : Ordered dev) {slot : Slot} (own : mine slot = true) :
    ¬ ForeignId mine (dev.tasks slot).id := by
  rintro ⟨other, foreign, isId⟩
  by_cases below : slot.val < dev.nextTaskId.toNat
  · rw [ordered.ids slot below] at isId
    have same : slot = other := Fin.ext (by omega)
    rw [same, foreign] at own
    cases own
  · rw [ordered.fresh slot (Nat.not_lt.mp below)] at isId
    exact absurd isId.symm (Nat.succ_ne_zero _)

/-- A slot of the accelerator has a sought id under both names or under neither. -/
theorem Mirrors.id_eq_iff (mirrors : Mirrors accel mine dev reduced) (ordered : Ordered dev)
    {slot : Slot} {taskId : UInt32} (own : mine slot = true) (ownId : ¬ ForeignId mine taskId) :
    (reduced.tasks (renameSlot mine slot)).id = renameId mine taskId ↔
      (dev.tasks slot).id = taskId := by
  rw [mirrors.tasks slot own]
  refine ⟨renameId_injOn (ordered.not_foreignId own) ownId, fun same => ?_⟩
  rw [renameTask, same]

/-- The SUBMIT handler takes the same step on both devices. -/
theorem submitStep_rename (now : UInt64) (mirrors : Mirrors accel mine dev reduced)
    (copied : Bool) (desc : TaskDesc) {phase : SubmitPhase} (owns : phase.Owns mine)
    (checked : ∀ slot, phase = .check slot →
      ¬ numAccelerators ≤ (dev.tasks slot).accelType.toNat) :
    submitStep reduced now copied desc accel (phase.rename mine) =
        ((submitStep dev now copied desc accel phase).1.rename mine,
          (submitStep dev now copied desc accel phase).2.rename mine) ∧
      (submitStep dev now copied desc accel phase).1.Owns accel mine ∧
      (submitStep dev now copied desc accel phase).2.Owns accel mine := by
  cases phase with
  | alloc => exact owns.elim
  | rollback slot ret => exact owns.elim
  | check slot =>
      have inRange := checked slot rfl
      have inRangeReduced :
          ¬ numAccelerators ≤ (reduced.tasks (renameSlot mine slot)).accelType.toNat := by
        rw [mirrors.tasks slot owns]
        exact inRange
      simp only [SubmitPhase.rename, submitStep, if_neg inRange, if_neg inRangeReduced]
      exact ⟨rfl, trivial, rfl, owns⟩
  | readId slot =>
      simp only [SubmitPhase.rename, submitStep, mirrors.tasks slot owns]
      exact ⟨rfl, trivial, rfl, trivial⟩
  | copyOut taskId =>
      cases copied with
      | true => exact ⟨rfl, trivial, trivial⟩
      | false => exact ⟨rfl, trivial, trivial⟩
  | fill slot => exact ⟨rfl, owns, rfl, owns⟩
  | writePending slot => exact ⟨rfl, owns, rfl, owns⟩
  | writeSubmitJiffies slot stamp => exact ⟨rfl, owns, rfl, owns⟩
  | enqueue slot => exact ⟨rfl, ⟨rfl, owns⟩, rfl, owns⟩
  | readJiffies slot => exact ⟨rfl, trivial, rfl, owns⟩
  | wakeUp slot => exact ⟨rfl, trivial, rfl, owns⟩

/-- The lookup stands at a slot of the accelerator. -/
def Lookup.Steady (mine : Slot → Bool) : Lookup → Prop
  | .scan index => Mine mine index
  | .check slot | .found slot => mine slot = true

/-- QUERY takes the same step on both devices at a slot of the accelerator. -/
theorem queryStep_rename (kernel : Kernel) (mirrors : Mirrors accel mine dev reduced)
    (ordered : Ordered dev) (choice : Bool) {taskId : UInt32} {phase : QueryPhase}
    (ownId : ¬ ForeignId mine taskId) (steady : phase.lookup.Steady mine) :
    queryStep kernel reduced choice (renameId mine taskId) (phase.rename mine) =
        (queryStep kernel dev choice taskId phase).rename mine ∧
      (queryStep kernel dev choice taskId phase).Owns accel mine := by
  cases phase with
  | scan index =>
      obtain ⟨inRange, own⟩ := steady
      have bound : rank mine index < maxTasks := Nat.lt_of_le_of_lt (rank_le index) inRange
      have next := rank_succ_own own
      have sameId := mirrors.id_eq_iff ordered own ownId
      simp only [QueryPhase.rename, queryStep, dif_pos inRange, dif_pos bound]
      by_cases found : (dev.tasks ⟨index, inRange⟩).id = taskId
      · have foundReduced := sameId.mpr found
        simp only [renameSlot] at foundReduced
        rw [if_pos found, if_pos foundReduced]
        exact ⟨rfl, ownId, own⟩
      · have otherReduced := mt sameId.mp found
        simp only [renameSlot] at otherReduced
        rw [if_neg found, if_neg otherReduced]
        exact ⟨by simp only [ClientPc.rename, QueryPhase.rename, next], ownId, trivial⟩
  | checkState slot =>
      have next := rank_succ_own steady
      simp only [QueryPhase.rename, queryStep, mirrors.tasks slot steady, renameTask]
      split
      · exact ⟨rfl, ownId, steady⟩
      · exact ⟨by simp only [ClientPc.rename, QueryPhase.rename, next, renameSlot], ownId, trivial⟩
  | readJiffies slot status =>
      simp only [QueryPhase.rename, queryStep, mirrors.tasks slot steady, renameTask]
      split <;> exact ⟨rfl, ownId, steady⟩
  | copyOut slot status =>
      cases choice with
      | true => exact ⟨rfl, trivial⟩
      | false => exact ⟨rfl, trivial⟩
  | _ =>
      simp only [QueryPhase.rename, queryStep, mirrors.tasks _ steady, renameTask]
      exact ⟨rfl, ownId, steady⟩

/-- CANCEL takes the same step on both devices at a slot of the accelerator. -/
theorem cancelStep_rename (mirrors : Mirrors accel mine dev reduced) (ordered : Ordered dev)
    {taskId : UInt32} {phase : CancelPhase} (ownId : ¬ ForeignId mine taskId)
    (steady : phase.lookup.Steady mine) :
    cancelStep reduced (renameId mine taskId) (phase.rename mine) =
        ((cancelStep dev taskId phase).1.rename mine,
          (cancelStep dev taskId phase).2.rename mine) ∧
      (cancelStep dev taskId phase).1.Owns accel mine ∧
      (cancelStep dev taskId phase).2.Owns accel mine := by
  cases phase with
  | scan index =>
      obtain ⟨inRange, own⟩ := steady
      have bound : rank mine index < maxTasks := Nat.lt_of_le_of_lt (rank_le index) inRange
      have next := rank_succ_own own
      have sameId := mirrors.id_eq_iff ordered own ownId
      simp only [CancelPhase.rename, cancelStep, dif_pos inRange, dif_pos bound]
      by_cases found : (dev.tasks ⟨index, inRange⟩).id = taskId
      · have foundReduced := sameId.mpr found
        simp only [renameSlot] at foundReduced
        rw [if_pos found, if_pos foundReduced]
        exact ⟨rfl, trivial, ownId, own⟩
      · have otherReduced := mt sameId.mp found
        simp only [renameSlot] at otherReduced
        rw [if_neg found, if_neg otherReduced]
        exact ⟨by simp only [ClientPc.rename, CancelPhase.rename, next, Action.rename], trivial,
          ownId, trivial⟩
  | checkState slot =>
      have next := rank_succ_own steady
      simp only [CancelPhase.rename, cancelStep, mirrors.tasks slot steady, renameTask]
      split
      · exact ⟨rfl, trivial, ownId, steady⟩
      · exact ⟨by simp only [ClientPc.rename, CancelPhase.rename, next, renameSlot,
          Action.rename], trivial, ownId, trivial⟩
  | writeState slot => exact ⟨rfl, steady, ownId, steady⟩
  | writeError slot => exact ⟨rfl, steady, ownId, steady⟩
  | completeAll slot => exact ⟨rfl, steady, trivial⟩

/-- Entering a call under new ids. -/
theorem enterCall_rename (copied : Bool) (call : Call) :
    enterCall copied (call.rename mine) = (enterCall copied call).rename mine := by
  have refused (errno : Errno) (desc : TaskDesc) :
      (ClientPc.returned (.submit errno.ret desc)).rename mine =
        .returned (.submit errno.ret desc) := by
    have notZero : errno.ret ≠ 0 := Int.ne_of_lt errno.ret_neg
    simp only [ClientPc.rename, Reply.rename, if_neg notZero]
  cases call with
  | submit desc =>
      simp only [Call.rename, enterCall]
      split
      · split
        · rfl
        · exact (refused _ desc).symm
      · exact (refused _ desc).symm
  | query taskId =>
      simp only [Call.rename, enterCall]
      split
      · simp only [ClientPc.rename, QueryPhase.rename, rank_zero]
      · rfl
  | cancel taskId =>
      simp only [Call.rename, enterCall]
      split
      · simp only [ClientPc.rename, CancelPhase.rename, rank_zero]
      · rfl
  | accelInfo info =>
      simp only [Call.rename, enterCall]
      split
      · split <;> rfl
      · rfl

/-- A call serves another accelerator, asks for a slot for this one, or is made in both
runs. -/
theorem enterCall_cases (accel : AccelIndex) (mine : Slot → Bool) (copied : Bool) (call : Call) :
    (enterCall copied call).Foreign accel mine ∨
      (∃ desc, call = .submit desc ∧ copied = true ∧ validateDesc desc = .ok accel ∧
        enterCall copied call = .submit desc accel .alloc) ∨
      (enterCall copied call).Owns accel mine := by
  cases call with
  | submit desc =>
      cases copied with
      | false => exact Or.inr (Or.inr trivial)
      | true =>
          cases valid : validateDesc desc with
          | error errno => simp [enterCall, valid, ClientPc.Owns]
          | ok target =>
              by_cases same : target = accel
              · subst same
                exact Or.inr (Or.inl ⟨desc, rfl, rfl, valid, by simp [enterCall, valid]⟩)
              · left
                simpa [enterCall, valid, ClientPc.Foreign] using same
  | query taskId =>
      cases copied with
      | false => exact Or.inr (Or.inr trivial)
      | true =>
          by_cases foreign : ForeignId mine taskId
          · exact Or.inl foreign
          · exact Or.inr (Or.inr ⟨foreign, trivial⟩)
  | cancel taskId =>
      cases copied with
      | false => exact Or.inr (Or.inr trivial)
      | true =>
          by_cases foreign : ForeignId mine taskId
          · exact Or.inl foreign
          · exact Or.inr (Or.inr ⟨foreign, trivial⟩)
  | accelInfo info =>
      refine Or.inr (Or.inr ?_)
      simp only [enterCall]
      split
      · split <;> trivial
      · trivial

/-! ### Lookups -/

theorem ClientPc.eq_scanAt {pc : ClientPc} {taskId : UInt32} {index : Nat}
    (looking : pc.lookup = some (taskId, .scan index)) : pc = pc.scanAt index := by
  cases pc with
  | query sought phase => cases phase <;> simp_all [ClientPc.lookup, QueryPhase.lookup, scanAt]
  | cancel sought phase => cases phase <;> simp_all [ClientPc.lookup, CancelPhase.lookup, scanAt]
  | _ => cases looking

/-- Passing a slot of another accelerator moves no scan of the reduced run. -/
theorem ClientPc.rename_scanAt_succ {slot : Slot} (foreign : mine slot = false) (pc : ClientPc) :
    (pc.scanAt (slot.val + 1)).rename mine = (pc.scanAt slot.val).rename mine := by
  cases pc <;> simp [scanAt, ClientPc.rename, QueryPhase.rename, CancelPhase.rename,
    rank_succ_foreign foreign]

theorem ClientPc.foreign_of_lookup {pc : ClientPc} {taskId : UInt32} {look : Lookup}
    (looking : pc.lookup = some (taskId, look)) :
    pc.Foreign accel mine ↔ ForeignId mine taskId := by
  cases pc with
  | query sought phase =>
      cases looking
      exact Iff.rfl
  | cancel sought phase =>
      cases looking
      exact Iff.rfl
  | _ => cases looking

theorem ClientPc.owns_of_lookup {pc : ClientPc} {taskId : UInt32} {look : Lookup}
    (looking : pc.lookup = some (taskId, look)) :
    pc.Owns accel mine ↔ ¬ ForeignId mine taskId ∧ look.Owns mine := by
  cases pc with
  | query sought phase =>
      cases looking
      exact Iff.rfl
  | cancel sought phase =>
      cases looking
      exact Iff.rfl
  | _ => cases looking

/-- A call that both runs make is not left out. -/
theorem ClientPc.Owns.not_foreign {pc : ClientPc} (owns : pc.Owns accel mine) :
    ¬ pc.Foreign accel mine := by
  cases pc with
  | submit desc target phase => exact fun foreign => foreign owns.1
  | query taskId phase => exact owns.1
  | cancel taskId phase => exact owns.1
  | _ => exact id

/-- The answer to a call other than SUBMIT. -/
theorem ClientMirrors.answered_other {reply : Reply} {reducedPc : ClientPc}
    (notSubmit : ∀ ret desc, reply ≠ .submit ret desc) (resting : reducedPc.Resting) :
    ClientMirrors accel mine (.returned reply) reducedPc := by
  refine .answered (Or.inr ⟨reply, rfl⟩) resting ?_
  intro desc accepted
  exact absurd (ClientPc.returned.inj accepted) (notSubmit _ _)

/-- A refused SUBMIT. -/
theorem ClientMirrors.answered_refused {reducedPc : ClientPc} (errno : Errno) (desc : TaskDesc)
    (resting : reducedPc.Resting) :
    ClientMirrors accel mine (.returned (.submit errno.ret desc)) reducedPc := by
  refine .answered (Or.inr ⟨_, rfl⟩) resting ?_
  intro other accepted
  have zero : errno.ret = 0 := (Reply.submit.inj (ClientPc.returned.inj accepted)).1
  exact absurd zero (Int.ne_of_lt errno.ret_neg)

/-- No slot that is not free has id 0. -/
theorem Ordered.not_matches_zero (ordered : Ordered dev) (slot : Slot) :
    (dev.tasks slot).matchesId 0 = false := by
  by_cases below : slot.val < dev.nextTaskId.toNat
  · have isId := ordered.ids slot below
    have notZero : (dev.tasks slot).id ≠ 0 := by
      intro isZero
      rw [isZero] at isId
      exact absurd isId.symm (Nat.succ_ne_zero _)
    simp [Task.matchesId, notZero]
  · rw [ordered.fresh slot (Nat.not_lt.mp below)]
    rfl

/-- A thread that rests in the run rests in the reduced run. -/
theorem ClientMirrors.resting {pc reducedPc : ClientPc}
    (mirrors : ClientMirrors accel mine pc reducedPc) (resting : pc.Resting) :
    reducedPc.Resting := by
  cases mirrors with
  | own owns =>
      rcases resting with rfl | ⟨reply, rfl⟩
      · exact Or.inl rfl
      · exact Or.inr ⟨_, rfl⟩
  | deleted _ restingReduced => exact restingReduced
  | waiting desc restingReduced => exact restingReduced
  | answered _ restingReduced _ => exact restingReduced
  | astray looking standing own foreign =>
      rw [ClientPc.lookup_of_resting resting] at looking
      cases looking
  | info info reducedInfo => rcases resting with rest | ⟨reply, rest⟩ <;> cases rest

/-- A resting thread can make any call. -/
theorem clientStep_call {pc : ClientPc} (resting : pc.Resting) (call : Call) (copied : Bool) :
    clientStep kernel dev now (.call call copied) pc = some (.tau, enterCall copied call) := by
  rcases resting with rfl | ⟨reply, rfl⟩ <;> rfl

/-- A lookup at a slot of the accelerator takes the same step in both runs. -/
theorem lookup_rename {pc next : ClientPc} {action : Action} {taskId : UInt32} {look : Lookup}
    {choice : Bool} (mirrors : Mirrors accel mine dev reduced) (ordered : Ordered dev)
    (looking : pc.lookup = some (taskId, look)) (own : ¬ ForeignId mine taskId)
    (steady : look.Steady mine)
    (taken : clientStep kernel dev now (.advance choice) pc = some (action, next)) :
    clientStep kernel reduced now (.advance choice) (pc.rename mine) =
        some (action.rename mine, next.rename mine) ∧
      action.Owns accel mine ∧ next.Owns accel mine := by
  cases pc with
  | query sought phase =>
      cases looking
      cases taken
      obtain ⟨same, owns⟩ := queryStep_rename kernel mirrors ordered choice own steady
      refine ⟨?_, trivial, owns⟩
      simp only [ClientPc.rename, clientStep, same]
      rfl
  | cancel sought phase =>
      cases looking
      obtain ⟨same, owns⟩ := cancelStep_rename mirrors ordered own steady
      simp only [clientStep, Option.some.injEq] at taken
      rw [taken] at same owns
      simp only [ClientPc.rename, clientStep, same]
      exact ⟨trivial, owns⟩
  | _ => cases looking

/-- How a lookup ends: at the end of the array, or with the task it has found. -/
def Lookup.Ends (look : Lookup) : Prop :=
  (∃ index, look = .scan index ∧ ¬ index < maxTasks) ∨ ∃ slot, look = .found slot

/-- A step of a lookup leaves it under way in the same call, or answers the call. -/
def Lookup.Goes (look : Lookup) (taskId : UInt32) (pc next : ClientPc) : Prop :=
  (∃ after, next.lookup = some (taskId, after) ∧
      ∀ index, next.scanAt index = pc.scanAt index) ∨
    ∃ reply, next = .returned reply ∧ (∀ ret desc, reply ≠ .submit ret desc) ∧ look.Ends

theorem queryStep_goes (kernel : Kernel) (dev : Dev) (choice : Bool) (taskId : UInt32)
    (phase : QueryPhase) :
    phase.lookup.Goes taskId (.query taskId phase) (queryStep kernel dev choice taskId phase) := by
  cases phase with
  | scan index =>
      simp only [queryStep]
      split
      next inRange => split <;> exact Or.inl ⟨_, rfl, fun _ => rfl⟩
      next beyond => exact Or.inr ⟨_, rfl, by simp, Or.inl ⟨index, rfl, beyond⟩⟩
  | checkState slot =>
      simp only [queryStep]
      split <;> exact Or.inl ⟨_, rfl, fun _ => rfl⟩
  | readJiffies slot status =>
      cases choice with
      | true => exact Or.inl ⟨_, rfl, fun _ => rfl⟩
      | false => exact Or.inl ⟨_, rfl, fun _ => rfl⟩
  | copyOut slot status =>
      cases choice with
      | true => exact Or.inr ⟨_, rfl, by simp, Or.inr ⟨slot, rfl⟩⟩
      | false => exact Or.inr ⟨_, rfl, by simp, Or.inr ⟨slot, rfl⟩⟩
  | _ => exact Or.inl ⟨_, rfl, fun _ => rfl⟩

/-- CANCEL stores only into the task it has found. -/
theorem cancelStep_goes (dev : Dev) (taskId : UInt32) (phase : CancelPhase) :
    phase.lookup.Goes taskId (.cancel taskId phase) (cancelStep dev taskId phase).2 ∧
      ((cancelStep dev taskId phase).1 = .tau ∨ ∃ slot write, phase.lookup = .found slot ∧
        (cancelStep dev taskId phase).1 = .store slot write) := by
  cases phase with
  | scan index =>
      simp only [cancelStep]
      split
      next inRange => split <;> exact ⟨Or.inl ⟨_, rfl, fun _ => rfl⟩, Or.inl rfl⟩
      next beyond =>
        exact ⟨Or.inr ⟨_, rfl, by simp, Or.inl ⟨index, rfl, beyond⟩⟩, Or.inl rfl⟩
  | checkState slot =>
      simp only [cancelStep]
      split <;> exact ⟨Or.inl ⟨_, rfl, fun _ => rfl⟩, Or.inl rfl⟩
  | completeAll slot =>
      exact ⟨Or.inr ⟨_, rfl, by simp, Or.inr ⟨slot, rfl⟩⟩, Or.inr ⟨slot, _, rfl, rfl⟩⟩
  | writeState slot => exact ⟨Or.inl ⟨_, rfl, fun _ => rfl⟩, Or.inr ⟨slot, _, rfl, rfl⟩⟩
  | writeError slot => exact ⟨Or.inl ⟨_, rfl, fun _ => rfl⟩, Or.inr ⟨slot, _, rfl, rfl⟩⟩

/-- A lookup in flight takes one step, or ends. It stores only into the task it has
found. -/
theorem lookup_advance {pc next : ClientPc} {action : Action} {taskId : UInt32} {look : Lookup}
    {choice : Bool} (looking : pc.lookup = some (taskId, look))
    (taken : clientStep kernel dev now (.advance choice) pc = some (action, next)) :
    ((∃ after, next.lookup = some (taskId, after) ∧ LookupStep dev taskId look after ∧
          ∀ index, next.scanAt index = pc.scanAt index) ∨
        ∃ reply, next = .returned reply ∧ (∀ ret desc, reply ≠ .submit ret desc) ∧ look.Ends) ∧
      (action = .tau ∨ ∃ slot write, look = .found slot ∧ action = .store slot write) := by
  have moved (after : Lookup) (ahead : next.lookup = some (taskId, after)) :
      LookupStep dev taskId look after := by
    rcases lookup_of_step taken ahead with ⟨_, _, isCall, -⟩ | ⟨before, wasLooking, moved⟩
    · cases isCall
    · rw [looking] at wasLooking
      cases wasLooking
      exact moved
  have goes : look.Goes taskId pc next ∧
      (action = .tau ∨ ∃ slot write, look = .found slot ∧ action = .store slot write) := by
    cases pc with
    | query sought phase =>
        cases looking
        cases taken
        exact ⟨queryStep_goes kernel dev choice taskId phase, Or.inl rfl⟩
    | cancel sought phase =>
        cases looking
        have both := cancelStep_goes dev taskId phase
        simp only [clientStep, Option.some.injEq] at taken
        rw [taken] at both
        exact both
    | _ => cases looking
  refine ⟨goes.1.imp_left ?_, goes.2⟩
  rintro ⟨after, ahead, sameCall⟩
  exact ⟨after, ahead, moved after ahead, sameCall⟩

end Clients

theorem System.moveClient_tau_twice (system : System) (thread : Nat) (first second : ClientPc) :
    (system.moveClient thread .tau first).moveClient thread .tau second =
      system.moveClient thread .tau second := by
  simp only [System.moveClient, Function.update_idem, Action.apply]

/-- A thread that no other disturbs scans to the end of the array, if no slot ahead of it
matches. -/
theorem Scanner.misses {kernel : Kernel} {now : UInt64} {taskId : UInt32}
    (scanner : Scanner kernel now taskId) (thread index : Nat) (system : System)
    (clock : system.jiffies = now) (scanning : system.clients thread = scanner.pc (.scan index))
    (noMatch : ∀ slot : Slot, index ≤ slot.val →
      (system.dev.tasks slot).matchesId taskId = false) :
    ∃ count,
      (machine kernel).execute (List.replicate count (.client thread (.advance true))) system =
        some (List.replicate count ⟨.client thread, .tau⟩,
          system.moveClient thread .tau scanner.missed) := by
  have advance (system : System) {pc next : ClientPc} (clock : system.jiffies = now)
      (standing : system.clients thread = pc)
      (taken : clientProgram kernel now system.dev (.advance true) pc = some (.tau, next)) :
      (machine kernel).step (.client thread (.advance true)) system =
        some (⟨.client thread, .tau⟩, system.moveClient thread .tau next) := by
    subst clock standing
    exact step_client taken
  by_cases inRange : index < maxTasks
  · obtain ⟨slot, rfl⟩ : ∃ slot : Slot, slot.val = index := ⟨⟨index, inRange⟩, rfl⟩
    obtain ⟨count, rest⟩ := scanner.misses thread (slot.val + 1)
      (system.moveClient thread .tau (scanner.pc (.scan (slot.val + 1)))) clock
      (by simp [System.moveClient]) (fun other beyond => noMatch other (by omega))
    rw [System.moveClient_tau_twice] at rest
    by_cases sameId : (system.dev.tasks slot).id = taskId
    · have free : (system.dev.tasks slot).state = .free := by
        have unmatched := noMatch slot le_rfl
        simpa [Task.matchesId, sameId] using unmatched
      have hit := advance system clock scanning (scanner.hit system.dev slot sameId)
      have pass := advance (system.moveClient thread .tau (scanner.pc (.check slot))) clock
        (by simp [System.moveClient]) (scanner.pass system.dev slot free)
      rw [System.moveClient_tau_twice] at pass
      exact ⟨count + 2, Machine.execute_cons hit (Machine.execute_cons pass rest)⟩
    · have skip := advance system clock scanning (scanner.skip system.dev slot sameId)
      exact ⟨count + 1, Machine.execute_cons skip rest⟩
  · exact ⟨1, Machine.execute_single
      (advance system clock scanning (scanner.stop system.dev index inRange))⟩
termination_by maxTasks - index

/-- The lookup of a thread misses, wherever it stands, if no slot ahead matches. -/
theorem lookup_misses {mine : Slot → Bool} {pc : ClientPc} {taskId : UInt32} {look : Lookup}
    (kernel : Kernel) (thread index : Nat) (system : System)
    (looking : pc.lookup = some (taskId, look))
    (scanning : system.clients thread = (pc.scanAt index).rename mine)
    (noMatch : ∀ slot : Slot, rank mine index ≤ slot.val →
      (system.dev.tasks slot).matchesId (renameId mine taskId) = false) :
    ∃ count reply,
      (machine kernel).execute (List.replicate count (.client thread (.advance true))) system =
        some (List.replicate count ⟨.client thread, .tau⟩,
          system.moveClient thread .tau (.returned reply)) := by
  cases pc with
  | query sought phase =>
      cases looking
      obtain ⟨count, executed⟩ :=
        (Scanner.query kernel system.jiffies (renameId mine taskId)).misses
          thread (rank mine index) system rfl scanning noMatch
      exact ⟨count, _, executed⟩
  | cancel sought phase =>
      cases looking
      obtain ⟨count, executed⟩ :=
        (Scanner.cancel kernel system.jiffies (renameId mine taskId)).misses
          thread (rank mine index) system rfl scanning noMatch
      exact ⟨count, _, executed⟩
  | _ => cases looking

end CortexForge.Concurrent
