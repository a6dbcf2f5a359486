import CortexForge.Concurrent.Action

/-!
Contract: the life of one task slot, without the threads.

The abstract model of the task pool. The life of a slot is read off the history
of a run: the point its owner has brought it to, and the id and descriptor of
the submission it was allocated for. `Enabled` lists the events that may hit a
slot at each point; everything a cancelling client does is allowed at any point
where the slot is visible. `Facts` is what the contents of the slot then
satisfy.

Owns: points, lives, the ledger of a history, the enabled events, and the facts
each of them preserves.

Does not own: that the driver only takes enabled steps, which is the refinement
proved in `Concurrent.Refinement`.
-/

namespace CortexForge.Concurrent

/-- How far the owner of a slot has brought it. -/
inductive Point where
  | free
  | allocated (thread : Nat)
  | filled (thread : Nat)
  | published (thread : Nat)
  | stamped (thread : Nat)
  | queued (accel : AccelIndex)
  | claimed (accel : AccelIndex)
  | running (accel : AccelIndex)
  | timed (accel : AccelIndex)
  | completed (accel : AccelIndex)
  | cleared (accel : AccelIndex)
  | signalled (accel : AccelIndex)
  | retired (accel : AccelIndex)
deriving DecidableEq

/-- The places a slot can be in. -/
inductive Place where
  | freeTasks
  | submitting (thread : Nat)
  | taskQueue (accel : AccelIndex)
  | activeTasks (accel : AccelIndex)
  | retired
deriving DecidableEq

namespace Point

def place : Point → Place
  | .free => .freeTasks
  | .allocated thread | .filled thread | .published thread | .stamped thread =>
      .submitting thread
  | .queued accel => .taskQueue accel
  | .claimed accel | .running accel | .timed accel | .completed accel | .cleared accel
  | .signalled accel => .activeTasks accel
  | .retired _ => .retired

/-- The state the owner has stored last. -/
def state : Point → TaskState
  | .free | .allocated _ | .filled _ => .free
  | .published _ | .stamped _ | .queued _ | .claimed _ => .pending
  | .running _ | .timed _ => .running
  | .completed _ | .cleared _ | .signalled _ | .retired _ => .complete

/-- A lookup by id can find the slot. -/
def Visible (point : Point) : Prop := point.state ≠ .free

instance (point : Point) : Decidable point.Visible :=
  inferInstanceAs (Decidable (_ ≠ _))

/-- The accelerator a slot has been queued on. -/
def accel? : Point → Option AccelIndex
  | .queued accel | .claimed accel | .running accel | .timed accel | .completed accel
  | .cleared accel | .signalled accel | .retired accel => some accel
  | _ => none

/-- The payload of the submission has been stored. -/
def Filled : Point → Prop
  | .free | .allocated _ => False
  | _ => True

theorem Filled.ne_free {point : Point} (filled : point.Filled) : point ≠ .free := by
  intro free
  rw [free] at filled
  exact filled

theorem Visible.filled {point : Point} (visible : point.Visible) : point.Filled := by
  cases point <;> trivial

/-- The worker has signalled the completion. -/
def Signalled : Point → Prop
  | .signalled _ | .retired _ => True
  | _ => False

end Point

/-- The life of a slot: its point, and the submission it was allocated for. -/
structure Life where
  point : Point
  taskId : UInt32
  desc : TaskDesc

def Life.initial : Life where
  point := .free
  taskId := 0
  desc := TaskDesc.zero

/-- How an event about a slot moves its life. -/
def Life.advance (life : Life) (event : Event) : Life :=
  match event.actor, event.action with
  | .client thread, .alloc _ taskId desc => ⟨.allocated thread, taskId, desc⟩
  | .client thread, .store _ (.fill _) => { life with point := .filled thread }
  | .client thread, .store _ (.state .pending) => { life with point := .published thread }
  | .client thread, .store _ (.submitJiffies _) => { life with point := .stamped thread }
  | .client _, .enqueue accel _ => { life with point := .queued accel }
  | .client _, .free _ => { life with point := .free }
  | .worker accel, .dequeue _ _ => { life with point := .claimed accel }
  | .worker accel, .store _ (.state .running) => { life with point := .running accel }
  | .worker accel, .store _ (.completeJiffies _) => { life with point := .timed accel }
  | .worker accel, .store _ (.state .complete) => { life with point := .completed accel }
  | .worker accel, .store _ (.errorCode _) => { life with point := .cleared accel }
  | .worker accel, .store _ .done => { life with point := .signalled accel }
  | .worker accel, .unlink _ _ => { life with point := .retired accel }
  | _, _ => life

/-- The life of a slot after an event. -/
def Life.after (slot : Slot) (event : Event) (life : Life) : Life :=
  if event.action.slot? = some slot then life.advance event else life

/-- The lives of all slots after a history. -/
def ledger (trace : List Event) (slot : Slot) : Life :=
  trace.foldl (fun life event => life.after slot event) Life.initial

theorem ledger_snoc (trace : List Event) (event : Event) (slot : Slot) :
    ledger (trace ++ [event]) slot = (ledger trace slot).after slot event := by
  simp [ledger]

theorem Life.after_about {slot : Slot} {event : Event} (life : Life)
    (about : event.action.slot? = some slot) : life.after slot event = life.advance event := by
  rw [Life.after, if_pos about]

theorem Life.after_other {slot : Slot} {event : Event} (life : Life)
    (elsewhere : event.action.slot? ≠ some slot) : life.after slot event = life := by
  rw [Life.after, if_neg elsewhere]

/-! ## Enabled events -/

/-- The events that may hit a slot, by the life it is in. -/
inductive Enabled (slot : Slot) (life : Life) : Event → Prop
  | alloc (thread : Nat) (taskId : UInt32) (desc : TaskDesc) (point : life.point = .free) :
      Enabled slot life ⟨.client thread, .alloc slot taskId desc⟩
  | fill (thread : Nat) (point : life.point = .allocated thread) :
      Enabled slot life ⟨.client thread, .store slot (.fill life.desc)⟩
  | publish (thread : Nat) (point : life.point = .filled thread) :
      Enabled slot life ⟨.client thread, .store slot (.state .pending)⟩
  | stamp (thread : Nat) (now : UInt64) (point : life.point = .published thread) :
      Enabled slot life ⟨.client thread, .store slot (.submitJiffies now)⟩
  | enqueue (thread : Nat) (accel : AccelIndex) (point : life.point = .stamped thread)
      (target : life.desc.accelType.toNat = accel.val) :
      Enabled slot life ⟨.client thread, .enqueue accel slot⟩
  | dequeue (accel : AccelIndex) (point : life.point = .queued accel) :
      Enabled slot life ⟨.worker accel, .dequeue accel slot⟩
  | run (accel : AccelIndex) (point : life.point = .claimed accel) :
      Enabled slot life ⟨.worker accel, .store slot (.state .running)⟩
  | time (accel : AccelIndex) (now : UInt64) (point : life.point = .running accel) :
      Enabled slot life ⟨.worker accel, .store slot (.completeJiffies now)⟩
  | complete (accel : AccelIndex) (point : life.point = .timed accel) :
      Enabled slot life ⟨.worker accel, .store slot (.state .complete)⟩
  | clear (accel : AccelIndex) (point : life.point = .completed accel) :
      Enabled slot life ⟨.worker accel, .store slot (.errorCode 0)⟩
  | signal (accel : AccelIndex) (point : life.point = .cleared accel) :
      Enabled slot life ⟨.worker accel, .store slot .done⟩
  | unlink (accel : AccelIndex) (point : life.point = .signalled accel) :
      Enabled slot life ⟨.worker accel, .unlink accel slot⟩
  | cancelState (thread : Nat) (visible : life.point.Visible) :
      Enabled slot life ⟨.client thread, .store slot (.state .cancelled)⟩
  | cancelError (thread : Nat) (visible : life.point.Visible) :
      Enabled slot life ⟨.client thread, .store slot (.errorCode ecanceledCode)⟩
  | cancelDone (thread : Nat) (visible : life.point.Visible) :
      Enabled slot life ⟨.client thread, .store slot .done⟩
  | elsewhere (event : Event) (other : event.action.slot? ≠ some slot) :
      Enabled slot life event

/-- No slot is ever released. -/
theorem Enabled.not_free {slot : Slot} {life : Life} {event : Event}
    (enabled : Enabled slot life event) : event.action ≠ .free slot := by
  intro isFree
  cases enabled with
  | elsewhere _ other => exact other (by rw [isFree]; rfl)
  | _ => cases isFree

/-- From allocation on, a slot keeps its submission. -/
theorem Enabled.keeps_submission {slot : Slot} {life : Life} {event : Event}
    (enabled : Enabled slot life event) (allocated : life.point ≠ .free) :
    (life.after slot event).point ≠ .free ∧ (life.after slot event).taskId = life.taskId ∧
      (life.after slot event).desc = life.desc := by
  unfold Life.after
  split
  · cases enabled with
    | alloc thread taskId desc point => exact absurd point allocated
    | elsewhere _ other => exact absurd ‹_› other
    | cancelState thread visible => exact ⟨allocated, rfl, rfl⟩
    | cancelError thread visible => exact ⟨allocated, rfl, rfl⟩
    | cancelDone thread visible => exact ⟨allocated, rfl, rfl⟩
    | _ => exact ⟨by simp [Life.advance], rfl, rfl⟩
  · exact ⟨allocated, rfl, rfl⟩

/-- A visible slot stays visible. -/
theorem Enabled.keeps_visible {slot : Slot} {life : Life} {event : Event}
    (enabled : Enabled slot life event) (visible : life.point.Visible) :
    (life.after slot event).point.Visible := by
  unfold Life.after
  split
  · cases enabled with
    | elsewhere _ other => exact absurd ‹_› other
    | cancelState thread _ => exact visible
    | cancelError thread _ => exact visible
    | cancelDone thread _ => exact visible
    | alloc thread taskId desc point => simp [point, Point.Visible, Point.state] at visible
    | fill thread point => simp [point, Point.Visible, Point.state] at visible
    | _ => simp [Life.advance, Point.Visible, Point.state]
  · exact visible

/-- A completed slot stays completed. -/
theorem Enabled.keeps_complete {slot : Slot} {life : Life} {event : Event}
    (enabled : Enabled slot life event) (complete : life.point.state = .complete) :
    (life.after slot event).point.state = .complete := by
  unfold Life.after
  split
  · cases enabled with
    | elsewhere _ other => exact absurd ‹_› other
    | cancelState thread _ => exact complete
    | cancelError thread _ => exact complete
    | cancelDone thread _ => exact complete
    | _ => simp_all [Life.advance, Point.state]
  · exact complete

/-- A slot becomes visible by the store of PENDING only. -/
theorem Enabled.visible_before {slot : Slot} {life : Life} {event : Event}
    (enabled : Enabled slot life event) (visible : (life.after slot event).point.Visible)
    (notPublish : event.action ≠ .store slot (.state .pending)) : life.point.Visible := by
  unfold Life.after at visible
  split at visible
  · cases enabled with
    | elsewhere _ other => exact absurd ‹_› other
    | publish thread point => exact absurd rfl notPublish
    | cancelState thread stillVisible => exact stillVisible
    | cancelError thread stillVisible => exact stillVisible
    | cancelDone thread stillVisible => exact stillVisible
    | alloc thread taskId desc point => exact absurd rfl visible
    | fill thread point => exact absurd rfl visible
    | _ => simp_all [Point.Visible, Point.state]
  · exact visible

/-- Only list operations move a slot between places. -/
theorem Enabled.keeps_place {slot : Slot} {life : Life} {event : Event} {write : Store}
    (enabled : Enabled slot life event) (isStore : event.action = .store slot write) :
    (life.advance event).point.place = life.point.place := by
  cases enabled with
  | elsewhere _ other => simp [isStore, Action.slot?] at other
  | cancelState thread visible => rfl
  | cancelError thread visible => rfl
  | cancelDone thread visible => rfl
  | fill thread point => rw [point]; rfl
  | publish thread point => rw [point]; rfl
  | stamp thread now point => rw [point]; rfl
  | run accel point => rw [point]; rfl
  | time accel now point => rw [point]; rfl
  | complete accel point => rw [point]; rfl
  | clear accel point => rw [point]; rfl
  | signal accel point => rw [point]; rfl
  | _ => cases isStore

/-- The thread that owns the slots of a place. -/
def Place.actor? : Place → Option Actor
  | .submitting thread => some (.client thread)
  | .taskQueue accel | .activeTasks accel => some (.worker accel)
  | .freeTasks | .retired => none

/-- Only the owner of a slot moves its point. -/
theorem Enabled.keeps_point {slot : Slot} {life : Life} {event : Event} {owner : Actor}
    (enabled : Enabled slot life event) (owned : life.point.place.actor? = some owner)
    (foreign : event.actor ≠ owner) : (life.after slot event).point = life.point := by
  unfold Life.after
  split
  · cases enabled with
    | elsewhere _ other => exact absurd ‹_› other
    | cancelState thread visible => rfl
    | cancelError thread visible => rfl
    | cancelDone thread visible => rfl
    | _ => simp_all [Point.place, Place.actor?]
  · rfl

/-! ## Facts about the contents -/

/-- The payload of a slot is that of a descriptor. -/
structure Carries (desc : TaskDesc) (task : Task) : Prop where
  accelType : task.accelType = desc.accelType
  priority : task.priority = desc.priority
  inputAddr : task.inputAddr = desc.inputAddr
  inputSize : task.inputSize = desc.inputSize
  outputAddr : task.outputAddr = desc.outputAddr
  outputSize : task.outputSize = desc.outputSize
  timeoutMs : task.timeoutMs = desc.timeoutMs

theorem carries_fillTask (desc : TaskDesc) (task : Task) : Carries desc (fillTask desc task) :=
  ⟨rfl, rfl, rfl, rfl, rfl, rfl, rfl⟩

/-- Only the payload stores touch the payload. -/
theorem Carries.store {desc : TaskDesc} {task : Task} (carries : Carries desc task)
    {write : Store} (notFill : ∀ other, write ≠ .fill other) :
    Carries desc (write.apply task) := by
  obtain ⟨accelType, priority, inputAddr, inputSize, outputAddr, outputSize, timeoutMs⟩ :=
    carries
  cases write with
  | fill other => exact absurd rfl (notFill other)
  | _ => exact ⟨accelType, priority, inputAddr, inputSize, outputAddr, outputSize, timeoutMs⟩

/-- What the contents of a slot satisfy at each point of its life. -/
structure Facts (life : Life) (task : Task) : Prop where
  state : task.state = life.point.state ∨ (task.state = .cancelled ∧ life.point.Visible)
  freeId : life.point = .free → task.id = 0
  taskId : life.point ≠ .free → task.id = life.taskId
  payload : life.point.Filled → Carries life.desc task
  done : life.point.Signalled → task.done = true
  target : ∀ accel, life.point.accel? = some accel → life.desc.accelType.toNat = accel.val

theorem Facts.initial : Facts Life.initial Task.zero where
  state := Or.inl rfl
  freeId := fun _ => rfl
  taskId := fun notFree => absurd rfl notFree
  payload := fun filled => filled.elim
  done := fun signalled => signalled.elim
  target := nofun

/-- A slot is found by a lookup exactly from the point where it is visible. -/
theorem Facts.state_ne_free_iff {life : Life} {task : Task} (facts : Facts life task) :
    task.state ≠ .free ↔ life.point.Visible := by
  constructor
  · intro notFree
    rcases facts.state with stored | ⟨-, visible⟩
    · unfold Point.Visible
      rwa [← stored]
    · exact visible
  · intro visible
    rcases facts.state with stored | ⟨cancelled, -⟩
    · rw [stored]
      exact visible
    · rw [cancelled]
      decide

/-- No task ever fails. -/
theorem Facts.state_ne_failed {life : Life} {task : Task} (facts : Facts life task) :
    task.state ≠ .failed := by
  intro failed
  rcases facts.state with stored | ⟨cancelled, -⟩
  · rw [failed] at stored
    cases point : life.point <;> simp [point, Point.state] at stored
  · rw [failed] at cancelled
    cases cancelled

/-- A store by the slot's owner moves the point and the stored state together. -/
private theorem Facts.of_owner {life : Life} {task : Task} {source : Point}
    (facts : Facts life task) (point : life.point = source) (write : Store) (target : Point)
    (filled : source.Filled) (notFill : ∀ desc, write ≠ .fill desc)
    (state : (write.apply task).state = target.state ∨
      ((write.apply task).state = .cancelled ∧ target.Visible))
    (done : target.Signalled → (write.apply task).done = true)
    (sameAccel : target.accel? = source.accel?) (notFree : target ≠ .free) :
    Facts { life with point := target } (write.apply task) := by
  subst point
  exact {
    state := state
    freeId := fun free => absurd free notFree
    taskId := fun _ => (write.apply_id task).trans (facts.taskId filled.ne_free)
    payload := fun _ => (facts.payload filled).store notFill
    done := done
    target := fun accel queued => facts.target accel (by rw [← sameAccel]; exact queued) }

/-- A list move leaves the contents alone. -/
private theorem Facts.of_move {life : Life} {task : Task} {source : Point}
    (facts : Facts life task) (point : life.point = source) (target : Point)
    (filled : source.Filled) (sameState : target.state = source.state)
    (sameDone : target.Signalled → source.Signalled)
    (goal : ∀ accel, target.accel? = some accel → life.desc.accelType.toNat = accel.val)
    (notFree : target ≠ .free) :
    Facts { life with point := target } task := by
  subst point
  exact {
    state := by
      unfold Point.Visible
      rw [sameState]
      exact facts.state
    freeId := fun free => absurd free notFree
    taskId := fun _ => facts.taskId filled.ne_free
    payload := fun _ => facts.payload filled
    done := fun signalled => facts.done (sameDone signalled)
    target := goal }

/-- A cancelling client moves no point; the slot reads CANCELLED from then on
until its owner stores a state again. -/
private theorem Facts.of_cancel {life : Life} {task : Task} (facts : Facts life task)
    (write : Store) (visible : life.point.Visible)
    (notFill : ∀ desc, write ≠ .fill desc)
    (state : (write.apply task).state = task.state ∨ (write.apply task).state = .cancelled)
    (done : task.done = true → (write.apply task).done = true) :
    Facts life (write.apply task) where
  state := by
    rcases state with same | cancelled
    · rw [same]
      exact facts.state
    · exact Or.inr ⟨cancelled, visible⟩
  freeId := fun free => (write.apply_id task).trans (facts.freeId free)
  taskId := fun allocated => (write.apply_id task).trans (facts.taskId allocated)
  payload := fun filled => (facts.payload filled).store notFill
  done := fun signalled => done (facts.done signalled)
  target := facts.target

/-- Every enabled event about a slot preserves the facts. -/
theorem Facts.advance {slot : Slot} {life : Life} {task : Task} {event : Event}
    (facts : Facts life task) (enabled : Enabled slot life event)
    (about : event.action.slot? = some slot) :
    Facts (life.advance event) (event.action.onTask task) := by
  -- Between two points that store the same state, a cancellation survives.
  have keepsState {source target : Point} (point : life.point = source)
      (state : source.state = target.state) :
      task.state = target.state ∨ (task.state = .cancelled ∧ target.Visible) := by
    unfold Point.Visible
    rw [← state, ← point]
    exact facts.state
  cases enabled with
  | alloc thread taskId desc point =>
      exact ⟨Or.inl rfl, nofun, fun _ => rfl, fun filled => filled.elim,
        fun signalled => signalled.elim, nofun⟩
  | fill thread point =>
      exact ⟨keepsState point rfl, nofun, fun _ => facts.taskId (by simp [point]),
        fun _ => carries_fillTask _ _, fun signalled => signalled.elim, nofun⟩
  | publish thread point =>
      exact facts.of_owner point (.state .pending) (.published thread) trivial (by simp)
        (Or.inl rfl) (fun signalled => signalled.elim) rfl (by simp)
  | stamp thread now point =>
      exact facts.of_owner point (.submitJiffies now) (.stamped thread) trivial (by simp)
        (keepsState point rfl) (fun signalled => signalled.elim) rfl (by simp)
  | enqueue thread accel point target =>
      refine facts.of_move point (.queued accel) trivial rfl
        (fun signalled => signalled.elim) ?_ (by simp)
      intro other queued
      cases queued
      exact target
  | dequeue accel point =>
      exact facts.of_move point (.claimed accel) trivial rfl (fun signalled => signalled.elim)
        (fun other queued => facts.target other (by rw [point]; exact queued)) (by simp)
  | run accel point =>
      exact facts.of_owner point (.state .running) (.running accel) trivial (by simp)
        (Or.inl rfl) (fun signalled => signalled.elim) rfl (by simp)
  | time accel now point =>
      exact facts.of_owner point (.completeJiffies now) (.timed accel) trivial (by simp)
        (keepsState point rfl) (fun signalled => signalled.elim) rfl (by simp)
  | complete accel point =>
      exact facts.of_owner point (.state .complete) (.completed accel) trivial (by simp)
        (Or.inl rfl) (fun signalled => signalled.elim) rfl (by simp)
  | clear accel point =>
      exact facts.of_owner point (.errorCode 0) (.cleared accel) trivial (by simp)
        (keepsState point rfl) (fun signalled => signalled.elim) rfl (by simp)
  | signal accel point =>
      exact facts.of_owner point .done (.signalled accel) trivial (by simp)
        (keepsState point rfl) (fun _ => rfl) rfl (by simp)
  | unlink accel point =>
      exact facts.of_move point (.retired accel) trivial rfl (fun _ => trivial)
        (fun other queued => facts.target other (by rw [point]; exact queued)) (by simp)
  | cancelState thread visible =>
      exact facts.of_cancel (.state .cancelled) visible (by simp) (Or.inr rfl) id
  | cancelError thread visible =>
      exact facts.of_cancel (.errorCode ecanceledCode) visible (by simp) (Or.inl rfl) id
  | cancelDone thread visible =>
      exact facts.of_cancel .done visible (by simp) (Or.inl rfl) (fun _ => rfl)
  | elsewhere _ other => exact absurd about other

/-- Every enabled event preserves the facts. -/
theorem Facts.after {slot : Slot} {life : Life} {dev : Dev} {event : Event}
    (facts : Facts life (dev.tasks slot)) (enabled : Enabled slot life event) :
    Facts (life.after slot event) ((event.action.apply dev).tasks slot) := by
  rw [Action.apply_tasks]
  by_cases about : event.action.slot? = some slot
  · rw [Life.after_about life about, if_pos about]
    exact facts.advance enabled about
  · rw [Life.after_other life about, if_neg about]
    exact facts

end CortexForge.Concurrent
