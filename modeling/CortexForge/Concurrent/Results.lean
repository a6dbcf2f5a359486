import CortexForge.Concurrent.Lookup

/-!
Contract: what a client can read of a task that has completed.

Two stores can still change the result of a COMPLETE task. `task_cancel` does not
look at the state before it stores, so a CANCEL turns a finished task into a
cancelled one. And the worker stores COMPLETE before it clears the error code, so
a code left behind by an earlier CANCEL is visible in between.

Owns: immutability of results as a property of runs, the side condition under
which it holds, and the run in which it does not.
-/

namespace CortexForge.Concurrent

open CortexForge.Foundation

/-- The event stores over the result of a COMPLETE slot: a cancelling client's
state or error code, or the worker's clearing of a code that is not zero. -/
def disturbsResult (system : System) : Event → Bool
  | ⟨.client _, .store slot (.state _)⟩ => (system.dev.tasks slot).state == .complete
  | ⟨.client _, .store slot (.errorCode _)⟩ => (system.dev.tasks slot).state == .complete
  | ⟨.worker _, .store slot (.errorCode _)⟩ =>
      (system.dev.tasks slot).state == .complete && (system.dev.tasks slot).errorCode != 0
  | _ => false

/-- The step leaves the results of COMPLETE tasks alone. -/
def SparesResults (system : System) (event : Event) : Prop :=
  disturbsResult system event = false

instance (system : System) (event : Event) : Decidable (SparesResults system event) :=
  inferInstanceAs (Decidable (_ = _))

/-- The result of a task that is COMPLETE or FAILED is immutable: in every
continuation whose steps are `Good`, every QUERY of its id reports what it
reports now, both a QUERY executed on its own and one that begins now and is
interleaved with the continuation. -/
def ImmutableResults (kernel : Kernel) (Good : System → Event → Prop) : Prop :=
  ∀ trace system slot events finish, (machine kernel).Run trace system →
    (system.dev.tasks slot).state = .complete ∨ (system.dev.tasks slot).state = .failed →
    ((machine kernel).StepsWhere Good system events finish →
      taskQuery kernel finish.dev (system.dev.tasks slot).id =
        some (taskStatus kernel (system.dev.tasks slot))) ∧
    ∀ thread ret other status,
      (system.clients thread).lookup = some ((system.dev.tasks slot).id, .scan 0) →
      (machine kernel).StepsWhere (DuringLookup Good thread) system events finish →
      finish.clients thread =
        .returned (.query (system.dev.tasks slot).id ret (some (other, status))) →
      other = slot ∧ status = taskStatus kernel (system.dev.tasks slot)

/-! ## The invariant of a completed task -/

/-- What `task_query` reads of a task. -/
structure SameResult (before after : Task) : Prop where
  id : after.id = before.id
  state : after.state = before.state
  submitJiffies : after.submitJiffies = before.submitJiffies
  completeJiffies : after.completeJiffies = before.completeJiffies
  errorCode : after.errorCode = before.errorCode

theorem SameResult.refl (task : Task) : SameResult task task := ⟨rfl, rfl, rfl, rfl, rfl⟩

theorem SameResult.taskStatus {before after : Task} (same : SameResult before after)
    (kernel : Kernel) : taskStatus kernel after = taskStatus kernel before := by
  obtain ⟨id, state, submitJiffies, completeJiffies, errorCode⟩ := same
  simp only [CortexForge.taskStatus, execUsec, id, state, submitJiffies, completeJiffies,
    errorCode]

/-- Past completion, only the excluded stores change what a query reads. -/
private theorem Enabled.keeps_result {slot : Slot} {life : Life} {system : System}
    {event : Event} (enabled : Enabled slot life event)
    (about : event.action.slot? = some slot) (complete : life.point.state = .complete)
    (isComplete : (system.dev.tasks slot).state = .complete)
    (spares : SparesResults system event) :
    SameResult (system.dev.tasks slot) (event.action.onTask (system.dev.tasks slot)) := by
  cases enabled with
  | elsewhere _ other => exact absurd about other
  | cancelState thread visible => simp [SparesResults, disturbsResult, isComplete] at spares
  | cancelError thread visible => simp [SparesResults, disturbsResult, isComplete] at spares
  | cancelDone thread visible => exact ⟨rfl, rfl, rfl, rfl, rfl⟩
  | clear accel point =>
      have cleared : (system.dev.tasks slot).errorCode = 0 := by
        simpa [SparesResults, disturbsResult, isComplete] using spares
      exact ⟨rfl, rfl, rfl, rfl, cleared.symm⟩
  | signal accel point => exact ⟨rfl, rfl, rfl, rfl, rfl⟩
  | unlink accel point => exact ⟨rfl, rfl, rfl, rfl, rfl⟩
  | _ => simp_all [Point.state]

/-- The owner has completed the slot and it still holds the result of `task`. -/
structure Settled (history : List Event) (system : System) (slot : Slot) (task : Task) :
    Prop where
  complete : (ledger history slot).point.state = .complete
  isComplete : task.state = .complete
  same : SameResult task (system.dev.tasks slot)

/-- One step keeps a settled result. -/
theorem Settled.step {kernel : Kernel} {history : List Event} {system next : System}
    {event : Event} {slot : Slot} {task : Task} (settled : Settled history system slot task)
    (inv : Inv history system) (stepped : Stepped kernel system event next)
    (spares : SparesResults system event) : Settled (history ++ [event]) next slot task := by
  have enabled := inv.enabled stepped slot
  refine ⟨?_, settled.isComplete, ?_⟩
  · rw [ledger_snoc]
    exact enabled.keeps_complete settled.complete
  · rw [stepped.dev, Action.apply_tasks]
    by_cases about : event.action.slot? = some slot
    · rw [if_pos about]
      have kept := enabled.keeps_result about settled.complete
        (settled.same.state.trans settled.isComplete) spares
      exact ⟨kept.id.trans settled.same.id, kept.state.trans settled.same.state,
        kept.submitJiffies.trans settled.same.submitJiffies,
        kept.completeJiffies.trans settled.same.completeJiffies,
        kept.errorCode.trans settled.same.errorCode⟩
    · rw [if_neg about]
      exact settled.same

/-! ## A query in flight -/

/-- What a query has copied so far agrees with the task. -/
def QueryPhase.Copied (kernel : Kernel) (task : Task) : QueryPhase → Prop
  | .scan _ | .checkState _ | .readId _ => True
  | .readState _ status => status = startStatus task.id
  | .readJiffies _ status => status = { startStatus task.id with status := task.state.code }
  | .readSubmit _ status complete =>
      status = { startStatus task.id with status := task.state.code } ∧
        complete = task.completeJiffies
  | .readComplete _ status submit =>
      status = { startStatus task.id with status := task.state.code } ∧
        submit = task.submitJiffies
  | .readError _ status =>
      status = { startStatus task.id with
        status := task.state.code, execUsec := execUsec kernel task }
  | .copyOut _ status => status = taskStatus kernel task

/-- A query, running or returned, carries the result of the task. -/
def ClientPc.Copied (kernel : Kernel) (task : Task) : ClientPc → Prop
  | .query _ phase => phase.Copied kernel task
  | .returned (.query _ _ (some (_, status))) => status = taskStatus kernel task
  | _ => True

private theorem queryStep_copied {kernel : Kernel} {dev : Dev} {taskId : UInt32} {slot : Slot}
    {task : Task} {phase : QueryPhase} (choice : Bool) (same : SameResult task (dev.tasks slot))
    (reaches : phase.lookup.Reaches slot) (copied : phase.Copied kernel task) :
    (queryStep kernel dev choice taskId phase).Copied kernel task := by
  obtain ⟨id, state, submitJiffies, completeJiffies, errorCode⟩ := same
  cases phase with
  | scan index =>
      simp only [queryStep]
      split
      · split <;> trivial
      · trivial
  | checkState other =>
      simp only [queryStep]
      split <;> trivial
  | readId other =>
      obtain rfl : other = slot := reaches
      exact congrArg startStatus id
  | readState other status =>
      obtain rfl : other = slot := reaches
      obtain rfl : status = startStatus task.id := copied
      show _ = _
      rw [state]
  | readJiffies other status =>
      obtain rfl : other = slot := reaches
      cases choice with
      | true => exact ⟨copied, completeJiffies⟩
      | false => exact ⟨copied, submitJiffies⟩
  | readSubmit other status complete =>
      obtain rfl : other = slot := reaches
      obtain ⟨rfl, rfl⟩ := copied
      show _ = _
      rw [submitJiffies]
      rfl
  | readComplete other status submit =>
      obtain rfl : other = slot := reaches
      obtain ⟨rfl, rfl⟩ := copied
      show _ = _
      rw [completeJiffies]
      rfl
  | readError other status =>
      obtain rfl : other = slot := reaches
      obtain rfl := copied
      show _ = _
      rw [errorCode]
      rfl
  | copyOut other status =>
      cases choice with
      | true => exact copied
      | false => trivial

theorem ClientPc.Copied.step {kernel : Kernel} {dev : Dev} {now : UInt64} {input : ClientInput}
    {pc next : ClientPc} {action : Action} {taskId : UInt32} {slot : Slot} {task : Task}
    (copied : pc.Copied kernel task) (answers : pc.Answers taskId slot)
    (looking : pc.lookup ≠ none) (same : SameResult task (dev.tasks slot))
    (taken : clientStep kernel dev now input pc = some (action, next)) :
    next.Copied kernel task := by
  cases clientTaken_of_step taken with
  | query choice sought phase =>
      obtain ⟨-, reaches, -⟩ := answers
      exact queryStep_copied choice same reaches copied
  | cancel choice sought phase =>
      rcases cancelStep_next dev sought phase with ⟨after, next⟩ | ⟨ret, next⟩
      · rw [next]
        trivial
      · rw [next]
        trivial
  | enter call copied pc resting => exact absurd (ClientPc.lookup_of_resting resting) looking
  | _ => exact absurd rfl looking

section Runs

variable {kernel : Kernel} {trace events : List Event} {system finish : System} {slot : Slot}
  {task : Task}

/-- A settled slot is the only one with its id. -/
theorem Settled.holds (settled : Settled trace system slot task)
    (run : (machine kernel).Run trace system) : Holds system.dev task.id slot := by
  have inv := inv_of_run run
  have visible : (ledger trace slot).point.Visible := by
    rw [Point.Visible, settled.complete]
    decide
  have sameId : (ledger trace slot).taskId = task.id := by
    rw [← (inv.facts slot).taskId visible.filled.ne_free, settled.same.id]
  rw [← sameId]
  exact inv.holds (ids_of_run run) visible

/-- A QUERY executed on its own reports a settled result. -/
theorem Settled.taskQuery (settled : Settled trace system slot task)
    (run : (machine kernel).Run trace system) :
    taskQuery kernel system.dev task.id = some (taskStatus kernel task) := by
  have holds := settled.holds run
  have found : findTask system.dev task.id = some slot :=
    findTask_eq_some_of_unique holds.sameId holds.notFree fun other sameId _ =>
      holds.only other sameId
  rw [CortexForge.taskQuery, found, Option.map_some, settled.same.taskStatus]

/-- A result stays settled in a run that spares results. -/
theorem Settled.steps (settled : Settled trace system slot task)
    (run : (machine kernel).Run trace system)
    (steps : (machine kernel).StepsWhere SparesResults system events finish) :
    Settled (trace ++ events) finish slot task := by
  refine steps.invariant (fun history state => Settled history state slot task) run settled ?_
  intro history state label event next reached settled spares taken
  exact settled.step (inv_of_run reached) (stepped_of_step taken) spares

/-- A QUERY that runs alongside carries the settled result. -/
theorem Settled.query (settled : Settled trace system slot task)
    (run : (machine kernel).Run trace system) {thread : Nat}
    (begun : (system.clients thread).lookup = some (task.id, .scan 0))
    (steps : (machine kernel).StepsWhere (DuringLookup SparesResults thread) system events
      finish) :
    (finish.clients thread).Answers task.id slot ∧
      (finish.clients thread).Copied kernel task := by
  have copiedAtStart : (system.clients thread).Copied kernel task := by
    generalize system.clients thread = pc at begun ⊢
    cases pc with
    | query sought phase =>
        cases phase <;> simp [ClientPc.lookup, QueryPhase.lookup] at begun
        trivial
    | cancel sought phase => trivial
    | _ => cases begun
  have followed := steps.invariant (fun history state => Settled history state slot task ∧
      (state.clients thread).Answers task.id slot ∧ (state.clients thread).Copied kernel task)
    run ⟨settled, (lookup_begun begun slot).1, copiedAtStart⟩ ?_
  · exact followed.2
  · rintro history state label event next reached ⟨settled, answers, copied⟩ good taken
    have stepped := stepped_of_step taken
    refine ⟨settled.step (inv_of_run reached) stepped good.1, ?_⟩
    by_cases own : event.actor = .client thread
    · obtain ⟨input, moved⟩ := stepped.clientStep_of_actor own
      exact ⟨(answers.step (good.2 own) (settled.holds reached) moved).1,
        copied.step answers (good.2 own) settled.same moved⟩
    · rw [stepped.clients_of_foreign own]
      exact ⟨answers, copied⟩

end Runs

/-! ## Immutable results -/

/-- Results are immutable in every run that spares them. -/
theorem immutableResults_of_spared (kernel : Kernel) :
    ImmutableResults kernel SparesResults := by
  intro trace system slot events finish run ended
  have facts := (inv_of_run run).facts slot
  have isComplete : (system.dev.tasks slot).state = .complete :=
    ended.resolve_right facts.state_ne_failed
  have complete : (ledger trace slot).point.state = .complete := by
    rcases facts.state with stored | ⟨cancelled, -⟩
    · rw [← stored, isComplete]
    · rw [isComplete] at cancelled
      cases cancelled
  have settled : Settled trace system slot (system.dev.tasks slot) :=
    ⟨complete, isComplete, .refl _⟩
  constructor
  · intro steps
    exact (settled.steps run steps).taskQuery (run.extend steps.steps)
  · intro thread ret other status begun steps returned
    obtain ⟨answers, copied⟩ := settled.query run begun steps
    rw [returned] at answers copied
    obtain ⟨-, ⟨-, answer, isAnswer, -⟩ | ⟨-, noAnswer⟩⟩ := answers
    · simp only [Option.some.injEq, Prod.mk.injEq] at isAnswer
      exact ⟨isAnswer.1, copied⟩
    · cases noAnswer

/-- A task has completed. -/
def completeSchedule : Schedule Kernel.hz1000 (initial 0) where
  labels := callSchedule 0 (.submit TaskDesc.zero) 10 ++ roundSchedule 0
  enabled := by decide +kernel

/-- Another task is submitted, cancelled while it is queued, and completed all the same. -/
def laterSchedule : Schedule Kernel.hz1000 completeSchedule.final where
  labels := callSchedule 0 (.submit TaskDesc.zero) 10 ++ callSchedule 1 (.cancel 2) 6 ++
    workSchedule 0 9 ++ sleepSchedule ++ workSchedule 0 4
  enabled := by decide +kernel

theorem immutableResults_later :
    taskQuery Kernel.hz1000 laterSchedule.final.dev (completeSchedule.final.dev.tasks 0).id =
      some (taskStatus Kernel.hz1000 (completeSchedule.final.dev.tasks 0)) := by
  have steps := laterSchedule.stepsWhere SparesResults (by decide +kernel)
  exact (immutableResults_of_spared Kernel.hz1000 _ _ 0 _ _ completeSchedule.run
    (Or.inl (by decide +kernel))).1 steps

/-- The completed task is cancelled. -/
def cancelCompleteSchedule : Schedule Kernel.hz1000 completeSchedule.final where
  labels := callSchedule 1 (.cancel 1) 5
  enabled := by decide +kernel

/-- Without the side condition a CANCEL changes the result of a completed task. -/
theorem cancel_rewrites_complete_task :
    ¬ ImmutableResults Kernel.hz1000 (fun _ _ => True) := by
  intro immutable
  have steps := Machine.steps_of_execute cancelCompleteSchedule.executed
  have same := (immutable _ _ 0 _ _ completeSchedule.run (Or.inl (by decide +kernel))).1 steps
  have changed : taskQuery Kernel.hz1000 cancelCompleteSchedule.final.dev
      (completeSchedule.final.dev.tasks 0).id ≠
      some (taskStatus Kernel.hz1000 (completeSchedule.final.dev.tasks 0)) := by
    decide +kernel
  exact changed same

end CortexForge.Concurrent
