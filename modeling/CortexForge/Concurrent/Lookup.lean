import CortexForge.Concurrent.Fifo

/-!
Contract: QUERY and CANCEL find exactly the task they are given.

A lookup loads the id and the state of a slot in two steps. For every id but 0
this is harmless: an id never leaves its slot. Id 0 is what every slot carries
before its first allocation, so a lookup of 0 that has loaded the id of a free
slot can be overtaken by a SUBMIT that takes the slot; the state it loads then
is that of somebody else's task.

Owns: which ids are assigned and published in a history, the outcome of a
lookup executed on its own and in flight, and the overtaken lookup of id 0.
-/

namespace CortexForge.Concurrent

open CortexForge.Foundation

/-! ## Assigned and published ids -/

/-- The id an event assigns to a submission. -/
def Event.assigns (event : Event) : Option UInt32 :=
  match event.action with
  | .alloc _ taskId _ => some taskId
  | _ => none

/-- The ids assigned to submissions so far. -/
def assignedIds (trace : List Event) : List UInt32 := trace.filterMap Event.assigns

/-- The submission with this id holds this slot and has reached PENDING. -/
def Published (trace : List Event) (taskId : UInt32) (slot : Slot) : Prop :=
  ∃ thread desc, ⟨.client thread, .alloc slot taskId desc⟩ ∈ trace ∧
    ⟨.client thread, .store slot (.state .pending)⟩ ∈ trace

theorem assignedIds_snoc (trace : List Event) (event : Event) :
    assignedIds (trace ++ [event]) = assignedIds trace ++ event.assigns.toList :=
  Machine.filterMap_snoc _ trace event

theorem mem_assignedIds {trace : List Event} {taskId : UInt32} :
    taskId ∈ assignedIds trace ↔ ∃ actor slot desc, ⟨actor, .alloc slot taskId desc⟩ ∈ trace := by
  unfold assignedIds
  rw [List.mem_filterMap]
  constructor
  · rintro ⟨⟨actor, action⟩, member, assigns⟩
    cases action with
    | alloc slot other desc =>
        cases assigns
        exact ⟨actor, slot, desc, member⟩
    | _ => cases assigns
  · rintro ⟨actor, slot, desc, member⟩
    exact ⟨_, member, rfl⟩

theorem Ids.mem_assignedIds_iff {trace : List Event} {dev : Dev} (ids : Ids trace dev)
    {taskId : UInt32} :
    taskId ∈ assignedIds trace ↔
      ∃ slot, (ledger trace slot).point ≠ .free ∧ (ledger trace slot).taskId = taskId := by
  rw [mem_assignedIds]
  constructor
  · rintro ⟨actor, slot, desc, member⟩
    obtain ⟨allocated, sameId, -⟩ := ids.registered actor slot taskId desc member
    exact ⟨slot, allocated, sameId⟩
  · rintro ⟨slot, allocated, rfl⟩
    obtain ⟨thread, member⟩ := ids.recorded slot allocated
    exact ⟨_, slot, _, member⟩

/-- A slot into which PENDING has been stored stays visible. -/
theorem visible_of_pending {kernel : Kernel} {trace : List Event} {system : System}
    {thread : Nat} {slot : Slot} (run : (machine kernel).Run trace system)
    (member : ⟨.client thread, .store slot (.state .pending)⟩ ∈ trace) :
    (ledger trace slot).point.Visible := by
  refine life_of_mem run (fun life => life.point.Visible) ?_ ?_ member
  · intro life
    rw [Life.after_about life rfl]
    exact nofun
  · intro life other enabled visible
    exact enabled.keeps_visible visible

/-- A published id is the id of a visible slot. -/
theorem Published.visible {kernel : Kernel} {trace : List Event} {system : System}
    {taskId : UInt32} {slot : Slot} (published : Published trace taskId slot)
    (run : (machine kernel).Run trace system) :
    (ledger trace slot).point.Visible ∧ (ledger trace slot).taskId = taskId := by
  obtain ⟨thread, desc, allocated, pending⟩ := published
  exact ⟨visible_of_pending run pending,
    ((ids_of_run run).registered _ slot taskId desc allocated).2.1⟩

/-! ## A lookup executed on its own -/

section Alone

variable {trace : List Event} {system : System}

/-- The id of a task that is not free is the id of its submission. -/
theorem Inv.id_of_notFree (inv : Inv trace system) {slot : Slot}
    (notFree : (system.dev.tasks slot).state ≠ .free) :
    (ledger trace slot).point ≠ .free ∧
      (system.dev.tasks slot).id = (ledger trace slot).taskId := by
  have allocated := ((inv.facts slot).state_ne_free_iff.mp notFree).filled.ne_free
  exact ⟨allocated, (inv.facts slot).taskId allocated⟩

/-- Only the slot of a submission carries its id. -/
theorem Inv.slot_of_id (inv : Inv trace system) (ids : Ids trace system.dev)
    {slot other : Slot} (allocated : (ledger trace slot).point ≠ .free)
    (sameId : (system.dev.tasks other).id = (ledger trace slot).taskId) : other = slot := by
  have positive := (ids.range slot allocated).1
  have otherAllocated : (ledger trace other).point ≠ .free := by
    intro free
    rw [(inv.facts other).freeId free] at sameId
    rw [← sameId] at positive
    exact absurd positive (by decide)
  rw [(inv.facts other).taskId otherAllocated] at sameId
  exact ids.distinct other slot otherAllocated allocated sameId

theorem Inv.findTask_published (inv : Inv trace system) (ids : Ids trace system.dev)
    {slot : Slot} (visible : (ledger trace slot).point.Visible) :
    findTask system.dev (ledger trace slot).taskId = some slot := by
  have allocated := visible.filled.ne_free
  refine findTask_eq_some_of_unique ((inv.facts slot).taskId allocated)
    ((inv.facts slot).state_ne_free_iff.mpr visible) ?_
  intro other sameId _
  exact inv.slot_of_id ids allocated sameId

theorem Inv.findTask_unassigned (inv : Inv trace system) (ids : Ids trace system.dev)
    {taskId : UInt32} (unassigned : taskId ∉ assignedIds trace) :
    findTask system.dev taskId = none := by
  rw [findTask_eq_none]
  intro slot sameId
  by_contra notFree
  obtain ⟨allocated, isId⟩ := inv.id_of_notFree notFree
  exact unassigned (ids.mem_assignedIds_iff.mpr ⟨slot, allocated, isId.symm.trans sameId⟩)

end Alone

/-! ## A lookup in flight -/

/-- The lookup has not passed the slot. -/
def Lookup.Reaches (slot : Slot) : Lookup → Prop
  | .scan index => index ≤ slot.val
  | .check other | .found other => other = slot

/-- The status a query has filled so far names the id. -/
def QueryPhase.Reports (taskId : UInt32) : QueryPhase → Prop
  | .scan _ | .checkState _ | .readId _ => True
  | .readState _ status | .readJiffies _ status | .readSubmit _ status _
  | .readComplete _ status _ | .readError _ status | .copyOut _ status =>
      status.taskId = taskId

/-- A QUERY or CANCEL of the id is on its way to the slot, or has come back with
it. A query may still fail in its final `copy_to_user`. -/
def ClientPc.Answers (taskId : UInt32) (slot : Slot) : ClientPc → Prop
  | .query sought phase =>
      sought = taskId ∧ phase.lookup.Reaches slot ∧ phase.Reports taskId
  | .cancel sought phase => sought = taskId ∧ phase.lookup.Reaches slot
  | .returned (.query sought ret answer) =>
      sought = taskId ∧
        ((ret = 0 ∧ ∃ status, answer = some (slot, status) ∧ status.taskId = taskId) ∨
          (ret = Errno.efault.ret ∧ answer = none))
  | .returned (.cancel sought ret) => sought = taskId ∧ ret = 0
  | _ => False

/-- A QUERY or CANCEL of the id has found nothing so far, or has come back with
`-ENOENT`. -/
def ClientPc.Misses (taskId : UInt32) : ClientPc → Prop
  | .query sought phase => sought = taskId ∧ ∀ slot, phase.lookup ≠ .found slot
  | .cancel sought phase => sought = taskId ∧ ∀ slot, phase.lookup ≠ .found slot
  | .returned (.query sought ret answer) =>
      sought = taskId ∧ ret = Errno.enoent.ret ∧ answer = none
  | .returned (.cancel sought ret) => sought = taskId ∧ ret = Errno.enoent.ret
  | _ => False

/-- The number of steps a lookup call can still take. -/
def ClientPc.remaining : ClientPc → Nat
  | .query _ phase =>
      match phase with
      | .scan index => 2 * (maxTasks - index) + 10
      | .checkState slot => 2 * (maxTasks - slot.val) + 9
      | .readId _ => 7
      | .readState _ _ => 6
      | .readJiffies _ _ => 5
      | .readSubmit _ _ _ | .readComplete _ _ _ => 4
      | .readError _ _ => 3
      | .copyOut _ _ => 2
  | .cancel _ phase =>
      match phase with
      | .scan index => 2 * (maxTasks - index) + 10
      | .checkState slot => 2 * (maxTasks - slot.val) + 9
      | .writeState _ => 3
      | .writeError _ => 2
      | .completeAll _ => 1
  | _ => 0

/-- A lookup call can always take its next step, and takes finitely many. -/
theorem lookup_progress (kernel : Kernel) (dev : Dev) (now : UInt64) (choice : Bool)
    {pc : ClientPc} (looking : pc.lookup ≠ none) :
    ∃ action next, clientStep kernel dev now (.advance choice) pc = some (action, next) ∧
      next.remaining < pc.remaining := by
  cases pc with
  | query taskId phase =>
      refine ⟨_, _, rfl, ?_⟩
      cases phase with
      | scan index =>
          simp only [queryStep]
          split
          next inRange =>
            split
            · simp only [ClientPc.remaining]
              omega
            · simp only [ClientPc.remaining]
              omega
          next => simp [ClientPc.remaining]
      | checkState slot =>
          have := slot.isLt
          simp only [queryStep]
          split
          · simp only [ClientPc.remaining]
            omega
          · simp only [ClientPc.remaining]
            omega
      | readJiffies slot status =>
          simp only [queryStep]
          split <;> simp [ClientPc.remaining]
      | copyOut slot status =>
          simp only [queryStep]
          split <;> simp [ClientPc.remaining]
      | _ => simp [queryStep, ClientPc.remaining]
  | cancel taskId phase =>
      refine ⟨(cancelStep dev taskId phase).1, (cancelStep dev taskId phase).2, rfl, ?_⟩
      cases phase with
      | scan index =>
          simp only [cancelStep]
          split
          next inRange =>
            split
            · simp only [ClientPc.remaining]
              omega
            · simp only [ClientPc.remaining]
              omega
          next => simp [ClientPc.remaining]
      | checkState slot =>
          have := slot.isLt
          simp only [cancelStep]
          split
          · simp only [ClientPc.remaining]
            omega
          · simp only [ClientPc.remaining]
            omega
      | _ => simp [cancelStep, ClientPc.remaining]
  | _ => exact absurd rfl looking

/-- The slot is the only one with the id, and it is not free. -/
structure Holds (dev : Dev) (taskId : UInt32) (slot : Slot) : Prop where
  sameId : (dev.tasks slot).id = taskId
  notFree : (dev.tasks slot).state ≠ .free
  only : ∀ other, (dev.tasks other).id = taskId → other = slot

/-- While one slot holds the id, no step of a lookup passes it. -/
theorem Lookup.Reaches.step {dev : Dev} {taskId : UInt32} {slot : Slot} {before after : Lookup}
    (reaches : before.Reaches slot) (holds : Holds dev taskId slot)
    (moved : LookupStep dev taskId before after) : after.Reaches slot := by
  cases moved with
  | hit other sameId => exact holds.only other sameId
  | skip other otherId =>
      have different : other ≠ slot := by
        rintro rfl
        exact otherId holds.sameId
      have : other.val ≠ slot.val := fun same => different (Fin.ext same)
      change other.val ≤ slot.val at reaches
      change other.val + 1 ≤ slot.val
      omega
  | accept other notFree => exact reaches
  | pass other free =>
      change other = slot at reaches
      rw [reaches] at free
      exact absurd free holds.notFree
  | keep other => exact reaches

private theorem queryStep_answers {kernel : Kernel} {dev : Dev} {taskId : UInt32} {slot : Slot}
    {phase : QueryPhase} (choice : Bool) (holds : Holds dev taskId slot)
    (reaches : phase.lookup.Reaches slot) (reports : phase.Reports taskId) :
    (queryStep kernel dev choice taskId phase).Answers taskId slot := by
  -- A step that stays in the query has moved the lookup.
  have onward (next : QueryPhase)
      (isNext : queryStep kernel dev choice taskId phase = .query taskId next)
      (reports' : next.Reports taskId) :
      (queryStep kernel dev choice taskId phase).Answers taskId slot := by
    have looking : (queryStep kernel dev choice taskId phase).lookup =
        some (taskId, next.lookup) := by rw [isNext]; rfl
    rw [isNext]
    exact ⟨rfl, reaches.step holds (queryStep_lookup looking).2, reports'⟩
  cases phase with
  | scan index =>
      have inRange : index < maxTasks := Nat.lt_of_le_of_lt reaches slot.isLt
      by_cases hit : (dev.tasks ⟨index, inRange⟩).id = taskId
      · exact onward (.checkState ⟨index, inRange⟩) (by simp [queryStep, inRange, hit]) trivial
      · exact onward (.scan (index + 1)) (by simp [queryStep, inRange, hit]) trivial
  | checkState other =>
      by_cases notFree : (dev.tasks other).state ≠ .free
      · exact onward (.readId other) (by simp [queryStep, notFree]) trivial
      · exact onward (.scan (other.val + 1)) (by simp [queryStep, not_not.mp notFree]) trivial
  | readId other =>
      obtain rfl : other = slot := reaches
      exact onward _ rfl holds.sameId
  | readState other status => exact onward _ rfl reports
  | readJiffies other status =>
      cases choice with
      | true => exact onward _ rfl reports
      | false => exact onward _ rfl reports
  | readSubmit other status complete => exact onward _ rfl reports
  | readComplete other status submit => exact onward _ rfl reports
  | readError other status => exact onward _ rfl reports
  | copyOut other status =>
      obtain rfl : other = slot := reaches
      cases choice with
      | true => exact ⟨rfl, Or.inl ⟨rfl, status, rfl, reports⟩⟩
      | false => exact ⟨rfl, Or.inr ⟨rfl, rfl⟩⟩

private theorem cancelStep_answers {dev : Dev} {taskId : UInt32} {slot : Slot}
    {phase : CancelPhase} (holds : Holds dev taskId slot)
    (reaches : phase.lookup.Reaches slot) :
    (cancelStep dev taskId phase).2.Answers taskId slot ∧
      ∀ other, (cancelStep dev taskId phase).1.slot? = some other → other = slot := by
  have onward (next : CancelPhase)
      (isNext : (cancelStep dev taskId phase).2 = .cancel taskId next) :
      (cancelStep dev taskId phase).2.Answers taskId slot := by
    have looking : (cancelStep dev taskId phase).2.lookup = some (taskId, next.lookup) := by
      rw [isNext]; rfl
    rw [isNext]
    exact ⟨rfl, reaches.step holds (cancelStep_lookup looking).2⟩
  cases phase with
  | scan index =>
      have inRange : index < maxTasks := Nat.lt_of_le_of_lt reaches slot.isLt
      by_cases hit : (dev.tasks ⟨index, inRange⟩).id = taskId
      · exact ⟨onward (.checkState ⟨index, inRange⟩) (by simp [cancelStep, inRange, hit]),
          by simp [cancelStep, inRange, hit, Action.slot?]⟩
      · exact ⟨onward (.scan (index + 1)) (by simp [cancelStep, inRange, hit]),
          by simp [cancelStep, inRange, hit, Action.slot?]⟩
  | checkState other =>
      by_cases notFree : (dev.tasks other).state ≠ .free
      · exact ⟨onward (.writeState other) (by simp [cancelStep, notFree]),
          by simp [cancelStep, notFree, Action.slot?]⟩
      · exact ⟨onward (.scan (other.val + 1)) (by simp [cancelStep, not_not.mp notFree]),
          by simp [cancelStep, not_not.mp notFree, Action.slot?]⟩
  | writeState other =>
      refine ⟨onward _ rfl, ?_⟩
      rintro _ ⟨⟩
      exact reaches
  | writeError other =>
      refine ⟨onward _ rfl, ?_⟩
      rintro _ ⟨⟩
      exact reaches
  | completeAll other =>
      refine ⟨⟨rfl, rfl⟩, ?_⟩
      rintro _ ⟨⟩
      exact reaches

/-- A step of a lookup call goes on towards the slot, and touches no other. -/
theorem ClientPc.Answers.step {kernel : Kernel} {dev : Dev} {now : UInt64}
    {input : ClientInput} {pc next : ClientPc} {action : Action} {taskId : UInt32}
    {slot : Slot} (answers : pc.Answers taskId slot) (looking : pc.lookup ≠ none)
    (holds : Holds dev taskId slot)
    (taken : clientStep kernel dev now input pc = some (action, next)) :
    next.Answers taskId slot ∧ ∀ other, action.slot? = some other → other = slot := by
  cases clientTaken_of_step taken with
  | query choice sought phase =>
      obtain ⟨rfl, reaches, reports⟩ := answers
      exact ⟨queryStep_answers choice holds reaches reports, fun _ touched => by cases touched⟩
  | cancel choice sought phase =>
      obtain ⟨rfl, reaches⟩ := answers
      exact cancelStep_answers holds reaches
  | enter call copied pc resting => exact absurd (ClientPc.lookup_of_resting resting) looking
  | _ => exact absurd rfl looking

/-- A step of a lookup call that can only reach free slots finds nothing and
changes nothing. -/
theorem ClientPc.Misses.step {kernel : Kernel} {dev : Dev} {now : UInt64}
    {input : ClientInput} {pc next : ClientPc} {action : Action} {taskId : UInt32}
    (misses : pc.Misses taskId) (looking : pc.lookup ≠ none)
    (free : ∀ slot, pc.lookup = some (taskId, .check slot) → (dev.tasks slot).state = .free)
    (taken : clientStep kernel dev now input pc = some (action, next)) :
    next.Misses taskId ∧ action = .tau := by
  cases clientTaken_of_step taken with
  | query choice sought phase =>
      obtain ⟨rfl, missed⟩ := misses
      refine ⟨?_, rfl⟩
      cases phase with
      | scan index =>
          simp only [queryStep]
          split
          · split
            · exact ⟨rfl, fun _ found => by cases found⟩
            · exact ⟨rfl, fun _ found => by cases found⟩
          · exact ⟨rfl, rfl, rfl⟩
      | checkState slot =>
          simp only [queryStep, free slot rfl]
          exact ⟨rfl, fun _ found => by cases found⟩
      | _ => exact absurd rfl (missed _)
  | cancel choice sought phase =>
      obtain ⟨rfl, missed⟩ := misses
      cases phase with
      | scan index =>
          simp only [cancelStep]
          split
          · split
            · exact ⟨⟨rfl, (fun _ found => by cases found)⟩, rfl⟩
            · exact ⟨⟨rfl, (fun _ found => by cases found)⟩, rfl⟩
          · exact ⟨⟨rfl, rfl⟩, rfl⟩
      | checkState slot =>
          simp only [cancelStep, free slot rfl]
          exact ⟨⟨rfl, (fun _ found => by cases found)⟩, rfl⟩
      | _ => exact absurd rfl (missed _)
  | enter call copied pc resting => exact absurd (ClientPc.lookup_of_resting resting) looking
  | _ => exact absurd rfl looking

/-! ## Lookups of id 0 -/

/-- The step does not publish a slot on which a lookup of id 0 stands between
its load of the id and its load of the state. -/
def ZeroLookupsApart (system : System) (event : Event) : Prop :=
  ∀ slot, event.action = .store slot (.state .pending) →
    ∀ thread, (system.clients thread).lookup ≠ some (0, .check slot)

/-- What a lookup of id 0 can have come to. -/
def Lookup.Barren (trace : List Event) : Lookup → Prop
  | .scan _ => True
  | .check slot => ¬ (ledger trace slot).point.Visible
  | .found _ => False

/-- A thread that publishes a slot is not looking up. -/
private theorem ClientMove.lookup_of_publish {dev : Dev} {thread : Nat} {pc next : ClientPc}
    {slot : Slot} (move : ClientMove dev thread pc (.store slot (.state .pending)) next) :
    next.lookup = none := by
  cases move with
  | quiet noSlot same => cases noSlot
  | publish desc accel slot => rfl

/-- The step of a lookup of id 0, judged by the history so far. -/
private theorem barren_own {kernel : Kernel} {trace : List Event} {system : System}
    {input : ClientInput} {pc next : ClientPc} {action : Action} {look : Lookup}
    (inv : Inv trace system) (ids : Ids trace system.dev)
    (barren : ∀ look, pc.lookup = some (0, look) → look.Barren trace)
    (taken : clientStep kernel system.dev system.jiffies input pc = some (action, next))
    (looking : next.lookup = some (0, look)) : look.Barren trace := by
  rcases lookup_of_step taken looking with ⟨_, _, _, _, begun⟩ | ⟨was, wasLooking, moved⟩
  · rw [begun]
    trivial
  · have wasBarren := barren was wasLooking
    cases moved with
    | hit slot sameId =>
        intro visible
        have allocated := visible.filled.ne_free
        have positive := (ids.range slot allocated).1
        rw [← (inv.facts slot).taskId allocated, sameId] at positive
        exact absurd positive (by decide)
    | skip slot otherId => trivial
    | accept slot notFree => exact wasBarren ((inv.facts slot).state_ne_free_iff.mp notFree)
    | pass slot free => trivial
    | keep slot => exact wasBarren

/-- A thread whose lookup of id 0 is kept apart from publications finds nothing. -/
theorem barren_thread {kernel : Kernel} {trace : List Event} {system next : System}
    {event : Event} (thread : Nat) (inv : Inv trace system) (ids : Ids trace system.dev)
    (stepped : Stepped kernel system event next)
    (apart : ∀ slot, event.action = .store slot (.state .pending) →
      (system.clients thread).lookup ≠ some (0, .check slot))
    (barren : ∀ look, (system.clients thread).lookup = some (0, look) → look.Barren trace) :
    ∀ look, (next.clients thread).lookup = some (0, look) →
      look.Barren (trace ++ [event]) := by
  intro look looking
  -- Neither the thread's own step nor another's publishes the slot it checks.
  have sofar : look.Barren trace ∧
      ∀ slot, look = .check slot → event.action ≠ .store slot (.state .pending) := by
    by_cases own : event.actor = .client thread
    · obtain ⟨input, taken⟩ := stepped.clientStep_of_actor own
      refine ⟨barren_own inv ids barren taken looking, ?_⟩
      intro slot _ publish
      rw [publish] at taken
      rw [(clientMove_of_step thread taken).lookup_of_publish] at looking
      cases looking
    · rw [stepped.clients_of_foreign own] at looking
      refine ⟨barren look looking, ?_⟩
      rintro slot rfl publish
      exact apart slot publish looking
  cases look with
  | scan index => trivial
  | found slot => exact sofar.1
  | check slot =>
      intro visible
      rw [ledger_snoc] at visible
      exact sofar.1 ((inv.enabled stepped slot).visible_before visible (sofar.2 slot rfl))

/-- Kept apart from publications, lookups of id 0 find nothing. -/
theorem barren_step {kernel : Kernel} {trace : List Event} {system next : System}
    {event : Event} (inv : Inv trace system) (ids : Ids trace system.dev)
    (stepped : Stepped kernel system event next) (apart : ZeroLookupsApart system event)
    (barren : ∀ thread look, (system.clients thread).lookup = some (0, look) →
      look.Barren trace) :
    ∀ thread look, (next.clients thread).lookup = some (0, look) →
      look.Barren (trace ++ [event]) := by
  intro thread
  exact barren_thread thread inv ids stepped (fun slot publish => apart slot publish thread)
    (barren thread)

/-! ## Exact identification -/

/-- The step meets the side condition, and if the thread takes it, it belongs to
the lookup call the thread is in. -/
def DuringLookup (Good : System → Event → Prop) (thread : Nat) (system : System)
    (event : Event) : Prop :=
  Good system event ∧ (event.actor = .client thread → (system.clients thread).lookup ≠ none)

instance (Good : System → Event → Prop) [∀ state event, Decidable (Good state event)]
    (thread : Nat) (system : System) (event : Event) :
    Decidable (DuringLookup Good thread system event) :=
  inferInstanceAs (Decidable (_ ∧ (_ → _)))

/-- What a task id stands for in a state reached with a history.

`answers` and `misses` follow a call that has just begun through every
continuation whose steps are `Good`, up to its return; `returns` bounds the
steps it has left, and `writable` says that a query's answer arrives whenever
its buffer can be written. -/
structure Identified (Good : System → Event → Prop) (kernel : Kernel) (trace : List Event)
    (system : System) : Prop where
  nonzero : ∀ slot, (system.dev.tasks slot).state ≠ .free → (system.dev.tasks slot).id ≠ 0
  distinct : ∀ first second, (system.dev.tasks first).state ≠ .free →
    (system.dev.tasks second).state ≠ .free →
    (system.dev.tasks first).id = (system.dev.tasks second).id → first = second
  found : ∀ taskId slot, Published trace taskId slot →
    taskQuery kernel system.dev taskId = some (taskStatus kernel (system.dev.tasks slot)) ∧
      taskCancel system.dev taskId = (0, system.dev.modifyTask slot cancelTask)
  missing : ∀ taskId, taskId ∉ assignedIds trace →
    taskQuery kernel system.dev taskId = none ∧
      taskCancel system.dev taskId = (Errno.enoent.ret, system.dev)
  answers : ∀ thread taskId slot, (system.clients thread).lookup = some (taskId, .scan 0) →
    Published trace taskId slot → ∀ events finish,
    (machine kernel).StepsWhere (DuringLookup Good thread) system events finish →
      (finish.clients thread).Answers taskId slot ∧
        ∀ event ∈ events, event.actor = .client thread →
          ∀ other, event.action.slot? = some other → other = slot
  misses : ∀ thread taskId, (system.clients thread).lookup = some (taskId, .scan 0) →
    ∀ events finish,
    (machine kernel).StepsWhere (DuringLookup Good thread) system events finish →
    taskId ∉ assignedIds (trace ++ events) →
      (finish.clients thread).Misses taskId ∧
        ∀ event ∈ events, event.actor = .client thread → event.action = .tau
  returns : ∀ thread choice, (system.clients thread).lookup ≠ none →
    ∃ event next, (machine kernel).step (.client thread (.advance choice)) system =
        some (event, next) ∧
      (next.clients thread).remaining < (system.clients thread).remaining
  writable : ∀ thread taskId slot status,
    system.clients thread = .query taskId (.copyOut slot status) →
    ∃ event next, (machine kernel).step (.client thread (.advance true)) system =
        some (event, next) ∧
      next.clients thread = .returned (.query taskId 0 (some (slot, status)))

section Calls

variable {kernel : Kernel} {trace : List Event} {system : System}

/-- A visible slot holds the id of its submission. -/
theorem Inv.holds (inv : Inv trace system) (ids : Ids trace system.dev) {slot : Slot}
    (visible : (ledger trace slot).point.Visible) :
    Holds system.dev (ledger trace slot).taskId slot where
  sameId := (inv.facts slot).taskId visible.filled.ne_free
  notFree := (inv.facts slot).state_ne_free_iff.mpr visible
  only := fun _ sameId => inv.slot_of_id ids visible.filled.ne_free sameId

/-- A call that has just begun has passed no slot and found none. -/
theorem lookup_begun {pc : ClientPc} {taskId : UInt32}
    (begun : pc.lookup = some (taskId, .scan 0)) (slot : Slot) :
    pc.Answers taskId slot ∧ pc.Misses taskId := by
  cases pc with
  | query sought phase =>
      cases phase <;> simp [ClientPc.lookup, QueryPhase.lookup] at begun
      obtain ⟨rfl, rfl⟩ := begun
      exact ⟨⟨rfl, Nat.zero_le _, trivial⟩, rfl, fun _ found => by cases found⟩
  | cancel sought phase =>
      cases phase <;> simp [ClientPc.lookup, CancelPhase.lookup] at begun
      obtain ⟨rfl, rfl⟩ := begun
      exact ⟨⟨rfl, Nat.zero_le _⟩, rfl, fun _ found => by cases found⟩
  | _ => cases begun

/-- A lookup of a published id comes back with its slot. -/
theorem answers_of_steps {Good : System → Event → Prop} {thread : Nat} {taskId : UInt32}
    {slot : Slot} {events : List Event} {finish : System}
    (run : (machine kernel).Run trace system)
    (begun : (system.clients thread).lookup = some (taskId, .scan 0))
    (published : Published trace taskId slot)
    (steps : (machine kernel).StepsWhere (DuringLookup Good thread) system events finish) :
    (finish.clients thread).Answers taskId slot ∧
      ∀ event ∈ events, event.actor = .client thread →
        ∀ other, event.action.slot? = some other → other = slot := by
  -- The invariant of the call: the slot keeps its id and stays visible, the
  -- thread is on its way to it, and its own events so far touch only it.
  have followed := steps.invariant_since (fun since state =>
    ((ledger (trace ++ since) slot).point.Visible ∧
        (ledger (trace ++ since) slot).taskId = taskId) ∧
      (state.clients thread).Answers taskId slot ∧
      ∀ event ∈ since, event.actor = .client thread →
        ∀ other, event.action.slot? = some other → other = slot)
    run ⟨by simpa using published.visible run, (lookup_begun begun slot).1, nofun⟩ ?_
  · exact followed.2
  · rintro since state label event next reached ⟨⟨visible, rfl⟩, answers, touched⟩ good taken
    have stepped := stepped_of_step taken
    have inv := inv_of_run reached
    have enabled := inv.enabled stepped slot
    have keptId := (enabled.keeps_submission visible.filled.ne_free).2.1
    rw [← List.append_assoc, ledger_snoc]
    refine ⟨⟨enabled.keeps_visible visible, keptId⟩, ?_⟩
    rw [List.forall_mem_append, List.forall_mem_singleton]
    by_cases own : event.actor = .client thread
    · obtain ⟨input, moved⟩ := stepped.clientStep_of_actor own
      obtain ⟨answers', touches⟩ := answers.step (good.2 own)
        (inv.holds (ids_of_run reached) visible) moved
      exact ⟨answers', touched, fun _ => touches⟩
    · rw [stepped.clients_of_foreign own]
      exact ⟨answers, touched, fun isOwn => absurd isOwn own⟩

/-- A lookup of an id that has not been assigned finds nothing. -/
theorem misses_of_steps {thread : Nat} {taskId : UInt32} {events : List Event}
    {finish : System} (run : (machine kernel).Run trace system)
    (barren : ∀ thread look, (system.clients thread).lookup = some (0, look) →
      look.Barren trace)
    (begun : (system.clients thread).lookup = some (taskId, .scan 0))
    (steps : (machine kernel).StepsWhere (DuringLookup ZeroLookupsApart thread) system events
      finish)
    (unassigned : taskId ∉ assignedIds (trace ++ events)) :
    (finish.clients thread).Misses taskId ∧
      ∀ event ∈ events, event.actor = .client thread → event.action = .tau := by
  have followed := steps.invariant_since (fun since state =>
    (∀ thread look, (state.clients thread).lookup = some (0, look) →
        look.Barren (trace ++ since)) ∧
      (taskId ∉ assignedIds (trace ++ since) → (state.clients thread).Misses taskId ∧
        ∀ event ∈ since, event.actor = .client thread → event.action = .tau))
    run ⟨by simpa using barren, fun _ => ⟨(lookup_begun begun 0).2, nofun⟩⟩ ?_
  · exact followed.2 unassigned
  · intro since state label event next reached ⟨barren, sofar⟩ good taken
    have stepped := stepped_of_step taken
    have inv := inv_of_run reached
    have ids := ids_of_run reached
    rw [← List.append_assoc]
    refine ⟨barren_step inv ids stepped good.1 barren, fun unassigned => ?_⟩
    rw [assignedIds_snoc, List.mem_append, not_or] at unassigned
    have wasUnassigned := unassigned.1
    obtain ⟨misses, silent⟩ := sofar wasUnassigned
    rw [List.forall_mem_append, List.forall_mem_singleton]
    by_cases own : event.actor = .client thread
    · obtain ⟨input, moved⟩ := stepped.clientStep_of_actor own
      -- The only slots whose id can match are still free.
      have free (slot : Slot)
          (checking : (state.clients thread).lookup = some (taskId, .check slot)) :
          (state.dev.tasks slot).state = .free := by
        by_contra notFree
        rcases inv.looks thread taskId _ checking with rfl | ⟨allocated, sameId⟩
        · exact barren thread _ checking ((inv.facts slot).state_ne_free_iff.mp notFree)
        · exact wasUnassigned (ids.mem_assignedIds_iff.mpr ⟨slot, allocated, sameId⟩)
      obtain ⟨misses', isTau⟩ := misses.step (good.2 own) free moved
      exact ⟨misses', silent, fun _ => isTau⟩
    · rw [stepped.clients_of_foreign own]
      exact ⟨misses, silent, fun isOwn => absurd isOwn own⟩

end Calls

/-- In every run that keeps lookups of id 0 apart from publications, task ids
identify tasks exactly. -/
theorem ids_identify_tasks (kernel : Kernel) (ticks : Nat) (trace : List Event)
    (system : System)
    (steps : (machine kernel).StepsWhere ZeroLookupsApart (initial ticks) trace system) :
    Identified ZeroLookupsApart kernel trace system := by
  have fresh : (machine kernel).Run [] (initial ticks) := ⟨_, ⟨ticks, rfl⟩, .refl _⟩
  have run : (machine kernel).Run trace system := ⟨_, ⟨ticks, rfl⟩, steps.steps⟩
  have inv := inv_of_run run
  have ids := ids_of_run run
  have barren := steps.invariant (fun history state => ∀ thread look,
      (state.clients thread).lookup = some (0, look) → look.Barren history) fresh nofun
    fun _ _ _ _ _ reached barren apart taken =>
      barren_step (inv_of_run reached) (ids_of_run reached) (stepped_of_step taken) apart barren
  constructor
  · intro slot notFree isZero
    obtain ⟨allocated, isId⟩ := inv.id_of_notFree notFree
    have positive := (ids.range slot allocated).1
    rw [← isId, isZero] at positive
    exact absurd positive (by decide)
  · intro first second firstNotFree secondNotFree same
    obtain ⟨firstAllocated, firstId⟩ := inv.id_of_notFree firstNotFree
    obtain ⟨secondAllocated, secondId⟩ := inv.id_of_notFree secondNotFree
    exact ids.distinct first second firstAllocated secondAllocated
      (by rw [← firstId, ← secondId, same])
  · intro taskId slot published
    obtain ⟨visible, rfl⟩ := published.visible run
    have found := inv.findTask_published ids visible
    exact ⟨by simp [taskQuery, found], by simp [taskCancel, found]⟩
  · intro taskId unassigned
    have notFound := inv.findTask_unassigned ids unassigned
    exact ⟨by simp [taskQuery, notFound], by simp [taskCancel, notFound]⟩
  · intro thread taskId slot begun published events finish continued
    exact answers_of_steps run begun published continued
  · intro thread taskId begun events finish continued unassigned
    exact misses_of_steps run barren begun continued unassigned
  · intro thread choice looking
    obtain ⟨action, pc, taken, fewer⟩ :=
      lookup_progress kernel system.dev system.jiffies choice looking
    refine ⟨⟨.client thread, action⟩, system.moveClient thread action pc, step_client taken, ?_⟩
    simpa [System.moveClient] using fewer
  · intro thread taskId slot status copying
    have taken : clientStep kernel system.dev system.jiffies (.advance true)
        (system.clients thread) =
          some (.tau, .returned (.query taskId 0 (some (slot, status)))) := by
      rw [copying]
      rfl
    exact ⟨_, _, step_client taken, by simp [System.moveClient]⟩

/-! ### Clients that never ask for id 0 -/

/-- The label does not begin a lookup of id 0. -/
def Label.avoidsZero : Label → Bool
  | .client _ (.call call _) => call.sought != some 0
  | _ => true

/-- No thread is looking up id 0. -/
def NoZeroLookup (system : System) : Prop :=
  ∀ thread look, (system.clients thread).lookup ≠ some (0, look)

theorem NoZeroLookup.step {kernel : Kernel} {label : Label} {system next : System}
    {event : Event} (absent : NoZeroLookup system) (avoids : label.avoidsZero = true)
    (taken : (machine kernel).step label system = some (event, next)) : NoZeroLookup next := by
  refine clients_of_step (fun pc => ∀ look, pc.lookup ≠ some (0, look)) absent ?_ taken
  rintro thread input action pc rfl moved look looking
  rcases lookup_of_step moved looking with ⟨call, copied, rfl, sought, -⟩ | ⟨was, wasLooking, -⟩
  · simp [Label.avoidsZero, sought] at avoids
  · exact absent thread was wasLooking

/-- Clients that never ask for id 0 keep such lookups apart from publications. -/
theorem zeroLookupsApart_of_execute {kernel : Kernel} {labels : List Label}
    {start finish : System} {events : List Event} (absent : NoZeroLookup start)
    (avoids : labels.all Label.avoidsZero = true)
    (executed : (machine kernel).execute labels start = some (events, finish)) :
    (machine kernel).StepsWhere ZeroLookupsApart start events finish := by
  refine Machine.stepsWhere_of_execute
    (fun labels state => NoZeroLookup state ∧ labels.all Label.avoidsZero = true) ?_ executed
    ⟨absent, avoids⟩
  rintro label labels state event next ⟨absent, avoids⟩ taken
  simp only [List.all_cons, Bool.and_eq_true] at avoids
  exact ⟨fun slot _ thread => absent thread (.check slot), absent.step avoids.1 taken, avoids.2⟩

/-- A task is queued and another thread has begun to query it. -/
def querySchedule : Schedule Kernel.hz1000 (initial 0) where
  labels := callSchedule 0 (.submit TaskDesc.zero) 10 ++ callSchedule 1 (.query 1) 0
  enabled := by decide +kernel

theorem ids_identify_tasks_query :
    (querySchedule.final.clients 1).lookup = some (1, .scan 0) ∧
      taskQuery Kernel.hz1000 querySchedule.final.dev 1 =
        some (taskStatus Kernel.hz1000 (querySchedule.final.dev.tasks 0)) ∧
      taskCancel querySchedule.final.dev 7 = (Errno.enoent.ret, querySchedule.final.dev) := by
  have apart : (machine Kernel.hz1000).StepsWhere ZeroLookupsApart (initial 0)
      querySchedule.trace querySchedule.final :=
    zeroLookupsApart_of_execute nofun (by decide +kernel) querySchedule.executed
  have identified := ids_identify_tasks Kernel.hz1000 0 querySchedule.trace
    querySchedule.final apart
  have published : Published querySchedule.trace 1 0 :=
    ⟨0, TaskDesc.zero, by decide +kernel, by decide +kernel⟩
  exact ⟨by decide +kernel, (identified.found 1 0 published).1,
    (identified.missing 7 (by decide +kernel)).2⟩

/-! ### The overtaken lookup -/

/-- A thread has begun to cancel id 0 on a fresh device. -/
def cancelZeroSchedule : Schedule Kernel.hz1000 (initial 0) where
  labels := callSchedule 1 (.cancel 0) 0
  enabled := by decide +kernel

/-- It loads the id of slot 0; a SUBMIT takes that slot and publishes it; the
cancellation loads the state and goes on to its end. -/
def overtakingSchedule : Schedule Kernel.hz1000 cancelZeroSchedule.final where
  labels := [.client 1 (.advance true)] ++ callSchedule 0 (.submit TaskDesc.zero) 4 ++
    List.replicate 4 (.client 1 (.advance true))
  enabled := by decide +kernel

/-- Without the side condition a CANCEL of id 0, which no submission ever has,
returns 0 and cancels another client's task. -/
theorem cancel_zero_hits_task :
    ¬ ∀ trace system, (machine Kernel.hz1000).Run trace system →
      Identified (fun _ _ => True) Kernel.hz1000 trace system := by
  intro identified
  have steps : (machine Kernel.hz1000).StepsWhere (DuringLookup (fun _ _ => True) 1)
      cancelZeroSchedule.final overtakingSchedule.trace overtakingSchedule.final :=
    overtakingSchedule.stepsWhere _ (by decide +kernel)
  have unassigned : (0 : UInt32) ∉ assignedIds
      (cancelZeroSchedule.trace ++ overtakingSchedule.trace) := by decide +kernel
  have begun : (cancelZeroSchedule.final.clients 1).lookup = some (0, .scan 0) := by
    decide +kernel
  obtain ⟨-, silent⟩ := (identified _ _ cancelZeroSchedule.run).misses 1 0 begun _ _ steps
    unassigned
  have cancels : ⟨.client 1, .store 0 (.state .cancelled)⟩ ∈ overtakingSchedule.trace := by
    decide +kernel
  cases silent _ cancels rfl

end CortexForge.Concurrent
