import CortexForge.Concurrent.Lookup

/-!
Contract: the life of a task that nobody cancels.

The state of such a task goes from PENDING over RUNNING to COMPLETE, its error code stays
0, and its completion is signalled once, after COMPLETE. Every other thread may work on
the slot array at the same time, and the one that can come in between is a CANCEL of
id 0 which has been overtaken by the task's own SUBMIT: it cancels a task that nobody
named.

Owns: the course of a slot's stores, the states that queries load, the side condition
that keeps CANCELs of id 0 away, and the run in which one is not kept away.
-/

namespace CortexForge.Concurrent

open CortexForge.Foundation

/-! ## The course of a task -/

/-- A store that marks how far a task has come. -/
inductive Mark where
  | entered (state : TaskState)
  | signalled
deriving DecidableEq

/-- The mark an event makes on a slot. -/
def Event.mark (slot : Slot) (event : Event) : Option Mark :=
  match event.action with
  | .store target (.state value) => if target = slot then some (.entered value) else none
  | .store target .done => if target = slot then some .signalled else none
  | _ => none

/-- The states a slot has entered and the signals of its completion, in order. -/
def marks (slot : Slot) (trace : List Event) : List Mark := trace.filterMap (Event.mark slot)

theorem marks_snoc (slot : Slot) (trace : List Event) (event : Event) :
    marks slot (trace ++ [event]) = marks slot trace ++ (event.mark slot).toList :=
  Machine.filterMap_snoc _ trace event

/-- The marks of a task from its submission to its completion. -/
def fullCourse : List Mark :=
  [.entered .pending, .entered .running, .entered .complete, .signalled]

/-- The state that was entered last. -/
def lastEntered (marked : List Mark) : TaskState :=
  (marked.filterMap fun
    | .entered state => some state
    | .signalled => none).getLastD .free

/-- The state that a QUERY of the id loads by a step. -/
def queriedState (taskId : UInt32) (system : System) (event : Event) : Option TaskState :=
  match event.actor with
  | .client thread =>
      match system.clients thread with
      | .query sought (.readState slot _) =>
          if sought = taskId then some (system.dev.tasks slot).state else none
      | _ => none
  | _ => none

/-- No CANCEL of the id is in progress. -/
def NotCancelling (taskId : UInt32) (system : System) : Prop :=
  ∀ thread phase, system.clients thread ≠ .cancel taskId phase

/-- A task has run its course so far, and nothing else; `seen` are the states that
QUERYs of its id have loaded, in order. -/
structure OnCourse (taskId : UInt32) (trace : List Event) (seen : List TaskState)
    (system : System) (slot : Slot) : Prop where
  course : marks slot trace <+: fullCourse
  state : (system.dev.tasks slot).state = lastEntered (marks slot trace)
  errorCode : (system.dev.tasks slot).errorCode = 0
  done : (system.dev.tasks slot).done = true ↔ .signalled ∈ marks slot trace
  finished : slot ∈ retiredSlots trace → marks slot trace = fullCourse
  forward : seen.Pairwise fun earlier later => earlier.code ≤ later.code
  reported : ∀ thread found status,
    system.clients thread = .returned (.query taskId 0 (some (found, status))) →
    found = slot ∧ ∃ state ∈ seen, status.status = state.code

/-- In every run whose steps are `Good`, every task for whose id no CANCEL is issued
stays on its course. -/
def UncancelledCourse (kernel : Kernel) (Good : System → Event → Prop) : Prop :=
  ∀ ticks taskId trace seen system thread slot desc,
    (machine kernel).StepsNoting
      (fun state event => Good state event ∧ NotCancelling taskId state) (queriedState taskId)
      (initial ticks) trace seen system →
    ⟨.client thread, .alloc slot taskId desc⟩ ∈ trace →
    OnCourse taskId trace seen system slot

/-- The step does not publish a slot on which a CANCEL of id 0 stands between its load
of the id and its load of the state. -/
def ZeroCancelsApart (system : System) (event : Event) : Prop :=
  ∀ slot, event.action = .store slot (.state .pending) →
    ∀ thread, system.clients thread ≠ .cancel 0 (.checkState slot)

/-! ## CANCELs -/

/-- The CANCELs of id 0 have found nothing. -/
def ZeroCancelsBarren (trace : List Event) (system : System) : Prop :=
  ∀ thread phase, system.clients thread = .cancel 0 phase → phase.lookup.Barren trace

/-- A thread in a CANCEL after a step has just begun it or was in it before. -/
theorem cancel_of_step {kernel : Kernel} {dev : Dev} {now : UInt64} {input : ClientInput}
    {pc : ClientPc} {action : Action} {taskId : UInt32} {phase : CancelPhase}
    (taken : clientStep kernel dev now input pc = some (action, .cancel taskId phase)) :
    ((∃ copied, input = .call (.cancel taskId) copied) ∧ pc.lookup = none) ∨
      ∃ before, pc = .cancel taskId before := by
  generalize isNext : ClientPc.cancel taskId phase = next at taken
  cases clientTaken_of_step taken with
  | enter call copied pc resting =>
      refine Or.inl ⟨?_, ClientPc.lookup_of_resting resting⟩
      have enters := entered copied call
      generalize enterCall copied call = later at enters isNext
      cases enters with
      | cancel sought =>
          cases isNext
          exact ⟨copied, rfl⟩
      | _ => cases isNext
  | submit choice desc accel phase =>
      rcases submitStep_next dev now choice desc accel phase with ⟨after, next⟩ | ⟨ret, reply, next⟩
      · rw [next] at isNext
        cases isNext
      · rw [next] at isNext
        cases isNext
  | query choice sought phase =>
      rcases queryStep_next kernel dev choice sought phase with ⟨after, next⟩ | ⟨ret, answer, next⟩
      · rw [next] at isNext
        cases isNext
      · rw [next] at isNext
        cases isNext
  | cancel choice sought before =>
      rcases cancelStep_next dev sought before with ⟨after, next⟩ | ⟨ret, next⟩
      · rw [next] at isNext
        cases isNext
        exact Or.inr ⟨before, rfl⟩
      · rw [next] at isNext
        cases isNext
  | accelInfo choice info accel => cases isNext
  | copyInfo choice info => cases isNext

theorem ZeroCancelsBarren.step {kernel : Kernel} {trace : List Event} {system next : System}
    {event : Event} (barren : ZeroCancelsBarren trace system) (inv : Inv trace system)
    (ids : Ids trace system.dev) (stepped : Stepped kernel system event next)
    (apart : ZeroCancelsApart system event) : ZeroCancelsBarren (trace ++ [event]) next := by
  intro thread phase cancelling
  have before : (∃ was, system.clients thread = .cancel 0 was) ∨
      (system.clients thread).lookup = none := by
    by_cases own : event.actor = .client thread
    · obtain ⟨input, taken⟩ := stepped.clientStep_of_actor own
      rw [cancelling] at taken
      rcases cancel_of_step taken with ⟨-, resting⟩ | was
      · exact Or.inr resting
      · exact Or.inl was
    · rw [stepped.clients_of_foreign own] at cancelling
      exact Or.inl ⟨phase, cancelling⟩
  refine barren_thread thread inv ids stepped ?_ ?_ phase.lookup ?_
  · intro slot publish looking
    rcases before with ⟨was, isCancel⟩ | none
    · refine apart slot publish thread ?_
      rw [isCancel] at looking ⊢
      cases was <;> simp_all [ClientPc.lookup, CancelPhase.lookup]
    · rw [none] at looking
      cases looking
  · intro look looking
    rcases before with ⟨was, isCancel⟩ | none
    · rw [isCancel] at looking
      cases looking
      exact barren thread was isCancel
    · rw [none] at looking
      cases looking
  · rw [cancelling]
    rfl

/-- A store that `task_cancel` makes. -/
def Event.Cancels (slot : Slot) (event : Event) : Prop :=
  ∃ thread, event.actor = .client thread ∧
    (event.action = .store slot (.state .cancelled) ∨
      event.action = .store slot (.errorCode ecanceledCode) ∨ event.action = .store slot .done)

/-- Only a CANCEL that has found a slot makes these stores into it. -/
theorem Stepped.cancels {kernel : Kernel} {system next : System} {event : Event} {slot : Slot}
    (stepped : Stepped kernel system event next) (cancels : event.Cancels slot) :
    ∃ thread taskId phase, system.clients thread = .cancel taskId phase ∧
      phase.lookup = .found slot := by
  obtain ⟨thread, own, stores⟩ := cancels
  obtain ⟨input, taken⟩ := stepped.clientStep_of_actor own
  have move := clientMove_of_step thread taken
  generalize isPc : system.clients thread = pc at move
  generalize event.action = action at move stores
  generalize next.clients thread = after at move
  cases move with
  | quiet noSlot same => rcases stores with rfl | rfl | rfl <;> cases noSlot
  | cancelState taskId held =>
      rcases stores with stores | stores | stores <;> cases stores
      exact ⟨thread, taskId, _, isPc, rfl⟩
  | cancelError taskId held =>
      rcases stores with stores | stores | stores <;> cases stores
      exact ⟨thread, taskId, _, isPc, rfl⟩
  | cancelDone taskId held =>
      rcases stores with stores | stores | stores <;> cases stores
      exact ⟨thread, taskId, _, isPc, rfl⟩
  | _ => rcases stores with stores | stores | stores <;> cases stores

/-- Where no CANCEL names the id and those of id 0 find nothing, nobody cancels the
task. -/
theorem not_cancels {kernel : Kernel} {trace : List Event} {system next : System}
    {event : Event} {taskId : UInt32} {slot : Slot} (inv : Inv trace system)
    (barren : ZeroCancelsBarren trace system) (notCancelling : NotCancelling taskId system)
    (named : (ledger trace slot).point = .free ∨ (ledger trace slot).taskId = taskId)
    (stepped : Stepped kernel system event next) : ¬ event.Cancels slot := by
  intro cancels
  obtain ⟨thread, sought, phase, cancelling, found⟩ := stepped.cancels cancels
  have looks := inv.looks thread sought (.found slot) (by rw [cancelling, ← found]; rfl)
  obtain ⟨visible, zero | sameId⟩ := looks
  · rw [zero] at cancelling
    have nothing := barren thread phase cancelling
    rw [found] at nothing
    exact nothing
  · have isId : (ledger trace slot).taskId = taskId :=
      named.resolve_left visible.filled.ne_free
    rw [← sameId, isId] at cancelling
    exact notCancelling thread phase cancelling

/-! ## One step on the course -/

/-- The marks a slot bears at each point of its life. -/
def Point.marks : Point → List Mark
  | .free | .allocated _ | .filled _ => []
  | .published _ | .stamped _ | .queued _ | .claimed _ => [.entered .pending]
  | .running _ | .timed _ => [.entered .pending, .entered .running]
  | .completed _ | .cleared _ => [.entered .pending, .entered .running, .entered .complete]
  | .signalled _ | .retired _ => fullCourse

theorem Point.marks_prefix (point : Point) : point.marks <+: fullCourse := by
  cases point <;> simp [Point.marks, fullCourse]

theorem Point.lastEntered_marks (point : Point) : lastEntered point.marks = point.state := by
  cases point <;> rfl

/-- The contents of a slot that nobody has cancelled. -/
structure Undisturbed (point : Point) (marked : List Mark) (task : Task) : Prop where
  marks : marked = point.marks
  state : task.state = point.state
  errorCode : task.errorCode = 0
  done : task.done = decide (.signalled ∈ point.marks)

theorem Undisturbed.initial : Undisturbed .free [] Task.zero := ⟨rfl, rfl, rfl, rfl⟩

/-- Every event about a slot but a cancellation leaves it undisturbed. -/
theorem Undisturbed.advance {slot : Slot} {life : Life} {event : Event} {marked : List Mark}
    {task : Task} (undisturbed : Undisturbed life.point marked task)
    (enabled : Enabled slot life event) (about : event.action.slot? = some slot)
    (notCancels : ¬ event.Cancels slot) :
    Undisturbed (life.advance event).point (marked ++ (event.mark slot).toList)
      (event.action.onTask task) := by
  obtain ⟨marks, state, errorCode, done⟩ := undisturbed
  -- The owner's stores each add the mark of the next point, and no other store is left.
  cases enabled with
  | elsewhere _ other => exact absurd about other
  | cancelState thread visible => exact absurd ⟨thread, rfl, Or.inl rfl⟩ notCancels
  | cancelError thread visible => exact absurd ⟨thread, rfl, Or.inr (Or.inl rfl)⟩ notCancels
  | cancelDone thread visible => exact absurd ⟨thread, rfl, Or.inr (Or.inr rfl)⟩ notCancels
  | alloc thread taskId desc point =>
      rw [point] at marks
      exact ⟨by rw [marks]; rfl, rfl, rfl, rfl⟩
  | fill thread point =>
      rw [point] at marks state done
      exact ⟨by rw [marks]; rfl, state, errorCode, done⟩
  | stamp thread now point =>
      rw [point] at marks state done
      exact ⟨by rw [marks]; rfl, state, errorCode, done⟩
  | enqueue thread accel point target =>
      rw [point] at marks state done
      exact ⟨by rw [marks]; rfl, state, errorCode, done⟩
  | dequeue accel point =>
      rw [point] at marks state done
      exact ⟨by rw [marks]; rfl, state, errorCode, done⟩
  | time accel now point =>
      rw [point] at marks state done
      exact ⟨by rw [marks]; rfl, state, errorCode, done⟩
  | unlink accel point =>
      rw [point] at marks state done
      exact ⟨by rw [marks]; rfl, state, errorCode, done⟩
  | clear accel point =>
      rw [point] at marks state done
      exact ⟨by rw [marks]; rfl, state, rfl, done⟩
  | publish thread point =>
      rw [point] at marks done
      exact ⟨by simp [marks, Event.mark, Life.advance, Point.marks], rfl, errorCode, done⟩
  | run accel point =>
      rw [point] at marks done
      exact ⟨by simp [marks, Event.mark, Life.advance, Point.marks], rfl, errorCode, done⟩
  | complete accel point =>
      rw [point] at marks done
      exact ⟨by simp [marks, Event.mark, Life.advance, Point.marks], rfl, errorCode, done⟩
  | signal accel point =>
      rw [point] at marks state
      exact ⟨by simp [marks, Event.mark, Life.advance, Point.marks, fullCourse], state, errorCode,
        rfl⟩

/-- An event about another slot leaves no mark. -/
theorem Event.mark_of_elsewhere {slot : Slot} {event : Event}
    (elsewhere : event.action.slot? ≠ some slot) : event.mark slot = none := by
  obtain ⟨actor, action⟩ := event
  cases action with
  | store target write =>
      have different : target ≠ slot := fun same => elsewhere (by rw [same]; rfl)
      cases write <;> simp [Event.mark, different]
  | _ => rfl

theorem Undisturbed.after {slot : Slot} {life : Life} {event : Event} {marked : List Mark}
    {dev : Dev} (undisturbed : Undisturbed life.point marked (dev.tasks slot))
    (enabled : Enabled slot life event) (notCancels : ¬ event.Cancels slot) :
    Undisturbed (life.after slot event).point (marked ++ (event.mark slot).toList)
      ((event.action.apply dev).tasks slot) := by
  rw [Action.apply_tasks]
  by_cases about : event.action.slot? = some slot
  · rw [Life.after_about life about, if_pos about]
    exact undisturbed.advance enabled about notCancels
  · rw [Life.after_other life about, if_neg about, Event.mark_of_elsewhere about]
    simpa using undisturbed

/-- The state the owner has stored never goes back. -/
theorem Enabled.state_mono {slot : Slot} {life : Life} {event : Event}
    (enabled : Enabled slot life event) :
    life.point.state.code ≤ (life.after slot event).point.state.code := by
  unfold Life.after
  split
  · cases enabled with
    | elsewhere _ other => exact absurd ‹_› other
    | cancelState thread visible => exact UInt32.le_refl _
    | cancelError thread visible => exact UInt32.le_refl _
    | cancelDone thread visible => exact UInt32.le_refl _
    | _ => simp_all [Life.advance, Point.state, TaskState.code]
  · exact UInt32.le_refl _

/-! ## Queries -/

/-- The slot and the status word that a query has loaded. -/
def QueryPhase.answer : QueryPhase → Option (Slot × UInt32)
  | .scan _ | .checkState _ | .readId _ | .readState _ _ => none
  | .readJiffies slot status | .readSubmit slot status _ | .readComplete slot status _
  | .readError slot status | .copyOut slot status => some (slot, status.status)

/-- The slot and the status word of a QUERY of the id, in progress or returned. -/
def ClientPc.answer (taskId : UInt32) : ClientPc → Option (Slot × UInt32)
  | .query sought phase => if sought = taskId then phase.answer else none
  | .returned (.query sought _ (some (slot, status))) =>
      if sought = taskId then some (slot, status.status) else none
  | _ => none

/-- A query has an answer after a step if it loads the state by the step or had it
before. -/
theorem answer_of_step {kernel : Kernel} {dev : Dev} {now : UInt64} {input : ClientInput}
    {pc next : ClientPc} {action : Action} {taskId : UInt32} {slot : Slot} {word : UInt32}
    (taken : clientStep kernel dev now input pc = some (action, next))
    (answers : next.answer taskId = some (slot, word)) :
    pc.answer taskId = some (slot, word) ∨
      ∃ status, pc = .query taskId (.readState slot status) ∧
        word = (dev.tasks slot).state.code := by
  cases clientTaken_of_step taken with
  | enter call copied pc resting =>
      have enters := entered copied call
      generalize enterCall copied call = later at enters answers
      cases enters <;> simp [ClientPc.answer, QueryPhase.answer] at answers
  | submit choice desc accel phase =>
      rcases submitStep_next dev now choice desc accel phase with ⟨after, next⟩ | ⟨ret, reply, next⟩
      · rw [next] at answers
        cases answers
      · rw [next] at answers
        cases answers
  | cancel choice sought phase =>
      rcases cancelStep_next dev sought phase with ⟨after, next⟩ | ⟨ret, next⟩
      · rw [next] at answers
        cases answers
      · rw [next] at answers
        cases answers
  | accelInfo choice info accel => cases answers
  | copyInfo choice info => cases answers
  | query choice sought phase =>
      by_cases same : sought = taskId
      · subst same
        cases phase with
        | readState other status =>
            simp only [queryStep, ClientPc.answer, QueryPhase.answer, ↓reduceIte,
              Option.some.injEq, Prod.mk.injEq] at answers
            obtain ⟨rfl, rfl⟩ := answers
            exact Or.inr ⟨status, rfl, rfl⟩
        | _ =>
            left
            simp only [queryStep] at answers
            (repeat' split at answers) <;>
              first
              | exact answers
              | simp_all [ClientPc.answer]
      · rcases queryStep_next kernel dev choice sought phase with
          ⟨after, next⟩ | ⟨ret, answer, next⟩
        · simp [next, ClientPc.answer, same] at answers
        · cases answer <;> simp [next, ClientPc.answer, same] at answers

/-! ## Every run -/

/-- The slot holds the task with this id, and a lookup can find it. -/
def Bears (trace : List Event) (taskId : UInt32) (slot : Slot) : Prop :=
  (ledger trace slot).point.Visible ∧ (ledger trace slot).taskId = taskId

/-- The invariant of a run in which nobody cancels the task. -/
structure Tracked (taskId : UInt32) (trace : List Event) (seen : List TaskState)
    (system : System) : Prop where
  barren : ZeroCancelsBarren trace system
  undisturbed : ∀ slot,
    (ledger trace slot).point = .free ∨ (ledger trace slot).taskId = taskId →
    Undisturbed (ledger trace slot).point (marks slot trace) (system.dev.tasks slot)
  forward : seen.Pairwise fun earlier later => earlier.code ≤ later.code
  bounded : ∀ state ∈ seen, ∃ slot, Bears trace taskId slot ∧
    state.code ≤ (ledger trace slot).point.state.code
  answered : ∀ thread slot word,
    (system.clients thread).answer taskId = some (slot, word) →
    Bears trace taskId slot ∧ ∃ state ∈ seen, word = state.code

theorem Tracked.initial (taskId : UInt32) (ticks : Nat) :
    Tracked taskId [] [] (initial ticks) where
  barren := fun _ _ cancelling => by cases cancelling
  undisturbed := fun slot _ => by
    rw [show (Concurrent.initial ticks).dev.tasks slot = Task.zero from probe_tasks slot]
    exact Undisturbed.initial
  forward := List.Pairwise.nil
  bounded := by simp
  answered := fun _ _ _ answers => by cases answers

section Step

variable {kernel : Kernel} {taskId : UInt32} {trace : List Event} {seen : List TaskState}
  {system next : System} {event : Event}

theorem Bears.step {slot : Slot} (bears : Bears trace taskId slot) (inv : Inv trace system)
    (stepped : Stepped kernel system event next) : Bears (trace ++ [event]) taskId slot := by
  have enabled := inv.enabled stepped slot
  obtain ⟨visible, isId⟩ := bears
  unfold Bears
  rw [ledger_snoc]
  exact ⟨enabled.keeps_visible visible,
    (enabled.keeps_submission visible.filled.ne_free).2.1.trans isId⟩

/-- The state that a QUERY of the id loads is that of the slot which bears it. -/
theorem queriedState_some {state : TaskState} (inv : Inv trace system) (positive : taskId ≠ 0)
    (queried : queriedState taskId system event = some state) :
    ∃ thread slot status, event.actor = .client thread ∧
      system.clients thread = .query taskId (.readState slot status) ∧
      state = (system.dev.tasks slot).state ∧ Bears trace taskId slot := by
  unfold queriedState at queried
  split at queried
  next thread isClient =>
    split at queried
    next sought slot status querying =>
      split at queried
      next same =>
        subst same
        simp only [Option.some.injEq] at queried
        have looks := inv.looks thread sought (.found slot) (by rw [querying]; rfl)
        exact ⟨thread, slot, status, isClient, querying, queried.symm, looks.1,
          looks.2.resolve_left positive⟩
      next => cases queried
    next => cases queried
  next => cases queried

/-- The slot that bears an id is the only one. -/
theorem Bears.unique {dev : Dev} {first second : Slot} (ids : Ids trace dev)
    (left : Bears trace taskId first) (right : Bears trace taskId second) : first = second :=
  ids.distinct first second left.1.filled.ne_free right.1.filled.ne_free
    (left.2.trans right.2.symm)

private theorem Tracked.undisturbed_step (tracked : Tracked taskId trace seen system)
    (inv : Inv trace system) (notCancelling : NotCancelling taskId system)
    (stepped : Stepped kernel system event next) (slot : Slot)
    (named : (ledger (trace ++ [event]) slot).point = .free ∨
      (ledger (trace ++ [event]) slot).taskId = taskId) :
    Undisturbed (ledger (trace ++ [event]) slot).point (marks slot (trace ++ [event]))
      (next.dev.tasks slot) := by
  have enabled := inv.enabled stepped slot
  have wasNamed : (ledger trace slot).point = .free ∨ (ledger trace slot).taskId = taskId := by
    by_cases free : (ledger trace slot).point = .free
    · exact Or.inl free
    · obtain ⟨still, keptId, -⟩ := enabled.keeps_submission free
      rw [ledger_snoc] at named
      exact Or.inr (keptId.symm.trans (named.resolve_left still))
  have notCancels := not_cancels inv tracked.barren notCancelling wasNamed stepped
  rw [ledger_snoc, marks_snoc, stepped.dev]
  exact (tracked.undisturbed slot wasNamed).after enabled notCancels

theorem Tracked.step (tracked : Tracked taskId trace seen system) (positive : taskId ≠ 0)
    (inv : Inv trace system) (ids : Ids trace system.dev) (apart : ZeroCancelsApart system event)
    (notCancelling : NotCancelling taskId system)
    (stepped : Stepped kernel system event next) :
    Tracked taskId (trace ++ [event]) (seen ++ (queriedState taskId system event).toList)
      next := by
  constructor
  · exact tracked.barren.step inv ids stepped apart
  · exact tracked.undisturbed_step inv notCancelling stepped
  · -- What is loaded now is the state of the slot, and no earlier load exceeds it.
    rw [List.pairwise_append]
    refine ⟨tracked.forward, by cases queriedState taskId system event <;> simp, ?_⟩
    intro earlier old later new
    obtain ⟨thread, slot, status, -, -, isState, bears⟩ :=
      queriedState_some inv positive (Option.mem_toList.mp new)
    obtain ⟨other, otherBears, below⟩ := tracked.bounded earlier old
    rw [otherBears.unique ids bears] at below
    rw [isState, (tracked.undisturbed slot (Or.inr bears.2)).state]
    exact below
  · intro state member
    have grows (slot : Slot) : (ledger trace slot).point.state.code ≤
        (ledger (trace ++ [event]) slot).point.state.code := by
      rw [ledger_snoc]
      exact (inv.enabled stepped slot).state_mono
    rcases List.mem_append.mp member with old | new
    · obtain ⟨slot, bears, below⟩ := tracked.bounded state old
      exact ⟨slot, bears.step inv stepped, UInt32.le_trans below (grows slot)⟩
    · obtain ⟨thread, slot, status, -, -, isState, bears⟩ :=
        queriedState_some inv positive (Option.mem_toList.mp new)
      refine ⟨slot, bears.step inv stepped, ?_⟩
      rw [isState, (tracked.undisturbed slot (Or.inr bears.2)).state]
      exact grows slot
  · intro thread slot word answers
    have keep (before : (system.clients thread).answer taskId = some (slot, word)) :
        Bears (trace ++ [event]) taskId slot ∧
          ∃ state ∈ seen ++ (queriedState taskId system event).toList, word = state.code := by
      obtain ⟨bears, state, member, same⟩ := tracked.answered thread slot word before
      exact ⟨bears.step inv stepped, state, List.mem_append_left _ member, same⟩
    by_cases own : event.actor = .client thread
    · obtain ⟨input, taken⟩ := stepped.clientStep_of_actor own
      rcases answer_of_step taken answers with before | ⟨status, querying, isWord⟩
      · exact keep before
      · have queried : queriedState taskId system event = some (system.dev.tasks slot).state := by
          simp [queriedState, own, querying]
        obtain ⟨visible, known⟩ := inv.looks thread taskId (.found slot) (by rw [querying]; rfl)
        have bears : Bears trace taskId slot := ⟨visible, known.resolve_left positive⟩
        exact ⟨bears.step inv stepped, _, by rw [queried]; simp, isWord⟩
    · rw [stepped.clients_of_foreign own] at answers
      exact keep answers

end Step

theorem Tracked.onCourse {taskId : UInt32} {trace : List Event} {seen : List TaskState}
    {system : System} {thread : Nat} {slot : Slot} {desc : TaskDesc}
    (tracked : Tracked taskId trace seen system) (inv : Inv trace system)
    (ids : Ids trace system.dev) (accepted : ⟨.client thread, .alloc slot taskId desc⟩ ∈ trace) :
    OnCourse taskId trace seen system slot := by
  obtain ⟨allocated, isId, -⟩ := ids.registered _ slot taskId desc accepted
  have undisturbed := tracked.undisturbed slot (Or.inr isId)
  constructor
  · rw [undisturbed.marks]
    exact Point.marks_prefix _
  · rw [undisturbed.marks, Point.lastEntered_marks]
    exact undisturbed.state
  · exact undisturbed.errorCode
  · rw [undisturbed.marks, undisturbed.done]
    simp
  · intro retired
    obtain ⟨accel, point⟩ := inv.point_of_retired retired
    rw [undisturbed.marks, point]
    rfl
  · exact tracked.forward
  · intro thread found status returned
    obtain ⟨bears, known⟩ := tracked.answered thread found status.status
      (by rw [returned]; simp [ClientPc.answer])
    exact ⟨ids.distinct found slot bears.1.filled.ne_free allocated (bears.2.trans isId.symm),
      known⟩

/-- In every run that publishes no slot under a CANCEL of id 0 which is between its two
loads, a task for whose id no CANCEL is issued goes through PENDING, RUNNING and COMPLETE
once and in this order, keeps error code 0, is signalled once and after COMPLETE, and
never goes backwards under QUERY. -/
theorem uncancelled_course (kernel : Kernel) : UncancelledCourse kernel ZeroCancelsApart := by
  intro ticks taskId trace seen system thread slot desc noted accepted
  have run : (machine kernel).Run trace system := ⟨_, ⟨ticks, rfl⟩, noted.stepsWhere.steps⟩
  have ids := ids_of_run run
  obtain ⟨allocated, isId, -⟩ := ids.registered _ slot taskId desc accepted
  have positive : taskId ≠ 0 := by
    rintro rfl
    have range := (ids.range slot allocated).1
    rw [isId] at range
    exact absurd range (by decide)
  have tracked := noted.invariant (Tracked taskId) (run_initial kernel ticks)
    (Tracked.initial taskId ticks)
    fun _ _ _ _ _ _ reached tracked good taken =>
      tracked.step positive (inv_of_run reached) (ids_of_run reached) good.1 good.2
        (stepped_of_step taken)
  rw [List.nil_append] at tracked
  exact tracked.onCourse (inv_of_run run) ids accepted

/-! ### Clients that leave a task alone -/

/-- The label does not begin a CANCEL of the id. -/
def Label.spares (label : Label) (taskId : UInt32) : Bool :=
  match label with
  | .client _ (.call (.cancel sought) _) => sought != taskId
  | _ => true

theorem NotCancelling.step {kernel : Kernel} {label : Label} {system next : System}
    {event : Event} {taskId : UInt32} (absent : NotCancelling taskId system)
    (spares : label.spares taskId = true)
    (taken : (machine kernel).step label system = some (event, next)) :
    NotCancelling taskId next := by
  refine clients_of_step (fun pc => ∀ phase, pc ≠ .cancel taskId phase) absent ?_ taken
  rintro thread input action pc rfl moved phase rfl
  rcases cancel_of_step moved with ⟨⟨copied, rfl⟩, -⟩ | ⟨was, cancelling⟩
  · simp [Label.spares] at spares
  · exact absent thread was cancelling

/-- In a schedule that begins no CANCEL of some ids none is ever in progress. -/
theorem notCancelling_of_execute {kernel : Kernel} {Item : Type}
    (note : System → Event → Option Item) (ids : List UInt32) {labels : List Label}
    {start finish : System} {events : List Event}
    (absent : ∀ taskId ∈ ids, NotCancelling taskId start)
    (spares : labels.all (fun label => ids.all label.spares) = true)
    (executed : (machine kernel).execute labels start = some (events, finish)) :
    (machine kernel).StepsNoting (fun state _ => ∀ taskId ∈ ids, NotCancelling taskId state)
      note start events ((machine kernel).notesOf note labels start) finish := by
  refine Machine.stepsNoting_of_execute note
    (fun labels state => (∀ taskId ∈ ids, NotCancelling taskId state) ∧
      labels.all (fun label => ids.all label.spares) = true) ?_ executed ⟨absent, spares⟩
  rintro label labels state event next ⟨absent, spares⟩ taken
  rw [List.all_cons, Bool.and_eq_true] at spares
  have first := List.all_eq_true.mp spares.1
  exact ⟨absent, fun taskId member => (absent taskId member).step (first taskId member) taken,
    spares.2⟩

/-- A task is queried before, during and after its execution; another client's task is
cancelled meanwhile. -/
def watchedSchedule : Schedule Kernel.hz1000 (initial 0) where
  labels := callSchedule 0 (.submit TaskDesc.zero) 10 ++
    callSchedule 2 (.submit TaskDesc.zero) 10 ++ callSchedule 1 (.query 1) 8 ++ workSchedule 0 7 ++
    callSchedule 2 (.cancel 2) 6 ++ callSchedule 1 (.query 1) 8 ++ workSchedule 0 2 ++
    sleepSchedule ++ workSchedule 0 8 ++ callSchedule 1 (.query 1) 8
  enabled := by decide +kernel

theorem uncancelled_course_watched :
    marks 0 watchedSchedule.trace = fullCourse ∧
      marks 1 watchedSchedule.trace = [.entered .pending, .entered .cancelled, .signalled] ∧
      watchedSchedule.notes (queriedState 1) = [.pending, .running, .complete] ∧
      OnCourse 1 watchedSchedule.trace [.pending, .running, .complete] watchedSchedule.final
        0 := by
  have seen : watchedSchedule.notes (queriedState 1) = [.pending, .running, .complete] := by
    decide +kernel
  have noted := notCancelling_of_execute (queriedState 1) [0, 1] (fun _ _ _ _ => by simp [initial])
    (by decide +kernel) watchedSchedule.executed
  rw [show (machine Kernel.hz1000).notesOf (queriedState 1) watchedSchedule.labels _ = _
    from seen] at noted
  refine ⟨by decide +kernel, by decide +kernel, seen, ?_⟩
  refine uncancelled_course Kernel.hz1000 0 1 watchedSchedule.trace _ watchedSchedule.final 0 0
    TaskDesc.zero (noted.mono ?_) (by decide +kernel)
  intro state event absent
  exact ⟨fun slot _ thread => absent 0 (by simp) thread (.checkState slot), absent 1 (by simp)⟩

/-! ### The overtaken CANCEL -/

/-- A CANCEL of id 0 loads the id of slot 0 while it is free; a SUBMIT takes that slot and
publishes it; the CANCEL loads the state and goes on to its end. -/
def namelessSchedule : Schedule Kernel.hz1000 (initial 0) where
  labels := callSchedule 1 (.cancel 0) 1 ++ callSchedule 0 (.submit TaskDesc.zero) 4 ++
    List.replicate 4 (.client 1 (.advance true))
  enabled := by decide +kernel

/-- Without the side condition a task is cancelled for whose id no CANCEL was issued. -/
theorem nameless_cancel_leaves_course :
    ¬ UncancelledCourse Kernel.hz1000 (fun _ _ => True) := by
  intro course
  have noted := notCancelling_of_execute (queriedState 1) [1] (fun _ _ _ _ => by simp [initial])
    (by decide +kernel) namelessSchedule.executed
  have onCourse := course 0 1 namelessSchedule.trace _ namelessSchedule.final 0 0 TaskDesc.zero
    (noted.mono fun state event absent => ⟨trivial, absent 1 (by simp)⟩) (by decide +kernel)
  have left : marks 0 namelessSchedule.trace =
      [.entered .pending, .entered .cancelled, .signalled] := by decide +kernel
  have course := onCourse.course
  rw [left] at course
  exact absurd course (by decide)

end CortexForge.Concurrent
