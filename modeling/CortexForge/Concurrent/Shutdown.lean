import CortexForge.Concurrent.Stopping

/-!
Contract: what a shutdown leaves of the accepted work.

A worker that reads the cleared `running` flag leaves at once: what is still on its
queue stays there, PENDING, and nobody signals its completion. A worker that is
waiting out the execution of a task leaves the wait when `kthread_should_stop` says
so, and stores COMPLETE all the same.

Owns: clean shutdown as a property of runs, the three steps that break it, and the
run in which it breaks.
-/

namespace CortexForge.Concurrent

open CortexForge.Foundation

/-- The states in which a task has come to its end. -/
def Terminal (state : TaskState) : Prop :=
  state = .complete ∨ state = .failed ∨ state = .cancelled

/-- `accel_stop_workers` has returned, and no SUBMIT is in flight. -/
def System.Stopped (system : System) : Prop :=
  system.stopper = .returned ∧
    ∀ thread desc accel phase, system.clients thread ≠ .submit desc accel phase

/-- The task whose execution wait the event cuts short: its worker finds
`kthread_should_stop` set. -/
def cutShort (system : System) (event : Event) : Option Slot :=
  match event.actor with
  | .worker accel =>
      match system.workers accel with
      | .exec slot (.testStop _ _) =>
          if (system.dev.accelerators accel).shouldStop then some slot else none
      | _ => none
  | _ => none

/-- A shutdown is clean: at its end every task that was queued is in a terminal
state with its completion signalled, and is COMPLETE only if its execution wait was
not cut short. -/
def CleanShutdown (kernel : Kernel) (Good : System → Event → Prop) : Prop :=
  ∀ ticks trace cut system,
    (machine kernel).StepsNoting Good cutShort (initial ticks) trace cut system →
    system.Stopped → ∀ accel, ∀ slot ∈ enqueued accel trace,
      Terminal (system.dev.tasks slot).state ∧ (system.dev.tasks slot).done = true ∧
        ((system.dev.tasks slot).state = .complete → slot ∉ cut)

/-- A task that needs no worker any more: it has been cancelled and signalled. -/
def Withdrawn (task : Task) : Prop := task.state = .cancelled ∧ task.done = true

instance (task : Task) : Decidable (Withdrawn task) := inferInstanceAs (Decidable (_ ∧ _))

/-- The step abandons no work: a worker leaves only withdrawn tasks on its queue,
nothing but withdrawn tasks is queued for a worker that has left, and no execution
wait is cut short. -/
structure FinishesWork (system : System) (event : Event) : Prop where
  leaves : ∀ accel, event.actor = .worker accel →
    (system.workers accel = .loop ∨ system.workers accel = .recheck) →
    (system.dev.accelerators accel).running = false →
    ∀ slot ∈ (system.dev.accelerators accel).taskQueue, Withdrawn (system.dev.tasks slot)
  queues : ∀ accel slot, event.action = .enqueue accel slot →
    system.workers accel = .exited → Withdrawn (system.dev.tasks slot)
  waits : cutShort system event = none

/-! ## The queue of a worker that has left -/

/-- Only a cancel can reach a task on the queue of a worker that takes no step. -/
private theorem Withdrawn.kept {slot : Slot} {life : Life} {event : Event} {task : Task}
    {accel : AccelIndex} (withdrawn : Withdrawn task) (enabled : Enabled slot life event)
    (about : event.action.slot? = some slot) (queued : life.point = .queued accel)
    (idle : event.actor ≠ .worker accel) : Withdrawn (event.action.onTask task) := by
  cases enabled with
  | elsewhere _ other => exact absurd about other
  | cancelState thread visible => exact ⟨rfl, withdrawn.2⟩
  | cancelError thread visible => exact withdrawn
  | cancelDone thread visible => exact ⟨withdrawn.1, rfl⟩
  | dequeue other point =>
      rw [queued] at point
      cases point
      exact absurd rfl idle
  | _ => simp_all

/-- One step keeps the queue of a worker that has left withdrawn. -/
private theorem withdrawn_step {kernel : Kernel} {history : List Event} {system next : System}
    {event : Event} {accel : AccelIndex} (inv : Inv history system)
    (stepped : Stepped kernel system event next) (finishes : FinishesWork system event)
    (sofar : system.workers accel = .exited →
      ∀ slot ∈ (system.dev.accelerators accel).taskQueue, Withdrawn (system.dev.tasks slot))
    (exited : next.workers accel = .exited) :
    ∀ slot ∈ (next.dev.accelerators accel).taskQueue, Withdrawn (next.dev.tasks slot) := by
  intro slot queued
  by_cases own : event.actor = .worker accel
  · -- The worker leaves now, and changes nothing else.
    obtain ⟨expired, taken⟩ := stepped.workerStep_of_actor own
    rw [exited] at taken
    obtain ⟨isTau, testing, cleared⟩ := workerStep_exited taken
    rw [stepped.dev, isTau] at queued ⊢
    exact finishes.leaves accel own testing cleared slot queued
  · rw [stepped.workers_of_foreign own] at exited
    rw [stepped.dev, Action.apply_tasks]
    rcases stepped.mem_queue queued with before | isEnqueue
    · have withdrawn := sofar exited slot before
      split
      next about =>
        exact withdrawn.kept (inv.enabled stepped slot) about (inv.point_of_queued before) own
      next => exact withdrawn
    · have withdrawn := finishes.queues accel slot isEnqueue exited
      rw [isEnqueue]
      simpa [Action.onTask] using withdrawn

/-! ## Clean shutdown -/

/-- A task whose worker has unlinked it is in a terminal state and signalled. -/
theorem terminal_of_retired {history : List Event} {system : System} {slot : Slot}
    {accel : AccelIndex} (inv : Inv history system)
    (retired : (ledger history slot).point = .retired accel) :
    Terminal (system.dev.tasks slot).state ∧ (system.dev.tasks slot).done = true := by
  have facts := inv.facts slot
  constructor
  · rcases facts.state with stored | ⟨cancelled, -⟩
    · rw [stored, retired]
      exact Or.inl rfl
    · exact Or.inr (Or.inr cancelled)
  · exact facts.done (by rw [retired]; trivial)

/-- A task that has been queued is on the queue, with the worker, or retired. -/
theorem Point.place_of_accel {point : Point} {accel : AccelIndex}
    (queued : point.accel? = some accel) :
    point = .queued accel ∨ point.place = .activeTasks accel ∨ point = .retired accel := by
  cases point <;> cases queued <;> simp [Point.place]

/-- Every shutdown is clean if no step abandons work. -/
theorem cleanShutdown_of_finishesWork (kernel : Kernel) : CleanShutdown kernel FinishesWork := by
  intro ticks trace cut system noted stopped accel slot accepted
  have steps := noted.stepsWhere
  have start := run_initial kernel ticks
  have run : (machine kernel).Run trace system := start.extend steps.steps
  have inv := inv_of_run run
  have withdrawn := steps.invariant (fun _ state => ∀ accel, state.workers accel = .exited →
    ∀ slot ∈ (state.dev.accelerators accel).taskQueue, Withdrawn (state.dev.tasks slot)) start
    (fun _ exited => by cases exited) ?_
  · have exited : system.workers accel = .exited := by
      refine (halting_of_run run).joined accel ?_
      have inRange : accel.val < numAccelerators := accel.isLt
      rw [stopped.1, StopperPc.Joined, StopperPc.progress]
      omega
    have uncut : cut = [] := noted.notes_eq_nil fun _ _ finishes => finishes.waits
    have onAccel := ((enqueuedOnce_of_run run).mem accel slot).mp accepted
    -- The worker has left, so it executes nothing.
    have inactive : placeOf trace slot ≠ .activeTasks accel := by
      intro active
      have listed := (inv.partition.mem (.activeTasks accel) slot).mpr active
      rw [content, inv.executing accel, System.executes, exited] at listed
      cases listed
    rcases Point.place_of_accel onAccel with point | active | point
    · have listed : slot ∈ (system.dev.accelerators accel).taskQueue :=
        (inv.partition.mem (.taskQueue accel) slot).mpr (by rw [placeOf, point]; rfl)
      obtain ⟨cancelled, done⟩ := withdrawn accel exited slot listed
      refine ⟨Or.inr (Or.inr cancelled), done, fun complete => ?_⟩
      rw [cancelled] at complete
      cases complete
    · exact absurd active inactive
    · obtain ⟨terminal, done⟩ := terminal_of_retired inv point
      exact ⟨terminal, done, fun _ => by rw [uncut]; exact List.not_mem_nil⟩
  · intro history state label event next reached sofar finishes taken accel
    exact withdrawn_step (inv_of_run reached) (stepped_of_step taken) finishes (sofar accel)

/-- The stopping thread and the workers from the call of `accel_stop_workers` to its
return, where every worker is at the head of its loop. -/
def stopSchedule : List Label :=
  List.replicate 5 .stopper ++ workSchedule 0 1 ++ List.replicate 6 .stopper ++
    workSchedule 1 1 ++ List.replicate 6 .stopper ++ workSchedule 2 1 ++
    List.replicate 3 .stopper

/-- Where thread 0 is the only client of a schedule and has returned, and the
stopping thread has returned, the system is stopped. -/
private theorem stopped_of_returned {schedule : Schedule Kernel.hz1000 (initial 0)}
    (actors : ∀ event ∈ schedule.trace,
      event.actor ∈ [Actor.client 0, .worker 0, .worker 1, .worker 2, .stopper, .clock])
    {reply : Reply} (returned : schedule.final.clients 0 = .returned reply)
    (stopper : schedule.final.stopper = .returned) : schedule.final.Stopped := by
  refine ⟨stopper, fun thread desc accel phase submitting => ?_⟩
  by_cases isFirst : thread = 0
  · rw [isFirst, returned] at submitting
    cases submitting
  · rw [schedule.clients_of_absent actors (by simpa using isFirst)] at submitting
    cases submitting

/-- A decidable part of the side condition: no worker leaves a queue behind, nothing
is queued for a worker that has left, and no wait is cut short. -/
def sparesWork (system : System) (event : Event) : Bool :=
  (match event.actor with
    | .worker accel =>
        (system.dev.accelerators accel).running ||
          (system.dev.accelerators accel).taskQueue.isEmpty
    | _ => true) &&
  (match event.action with
    | .enqueue accel _ => system.workers accel != .exited
    | _ => true) &&
  (cutShort system event).isNone

theorem finishesWork_of_sparesWork {system : System} {event : Event}
    (spares : sparesWork system event = true) : FinishesWork system event := by
  simp only [sparesWork, Bool.and_eq_true, Option.isNone_iff_eq_none] at spares
  obtain ⟨⟨leaves, queues⟩, waits⟩ := spares
  refine ⟨fun accel own _ cleared slot queued => ?_, fun accel slot isEnqueue exited => ?_,
    waits⟩
  · simp only [own, cleared, Bool.false_or, List.isEmpty_iff] at leaves
    rw [leaves] at queued
    cases queued
  · simp [isEnqueue, exited] at queues

/-- A task is completed before the workers are stopped. -/
def finishedSchedule : Schedule Kernel.hz1000 (initial 0) where
  labels := callSchedule 0 (.submit TaskDesc.zero) 10 ++ roundSchedule 0 ++ stopSchedule
  enabled := by decide +kernel

theorem cleanShutdown_finished :
    Terminal (finishedSchedule.final.dev.tasks 0).state ∧
      (finishedSchedule.final.dev.tasks 0).done = true := by
  have passed : (machine Kernel.hz1000).passes sparesWork finishedSchedule.labels
      (initial 0) = true := by decide +kernel
  have steps := (Machine.stepsWhere_of_passes finishedSchedule.executed passed).mono
    fun _ _ => finishesWork_of_sparesWork
  obtain ⟨cut, noted⟩ := steps.noting cutShort
  have reply : finishedSchedule.final.clients 0 =
      .returned (.submit 0 { TaskDesc.zero with taskId := 1 }) := by decide +kernel
  have stopped := stopped_of_returned (by decide +kernel) reply (by decide +kernel)
  have clean := cleanShutdown_of_finishesWork Kernel.hz1000 0 _ cut _ noted stopped 0 0
    (by decide +kernel)
  exact ⟨clean.1, clean.2.1⟩

/-- The workers are stopped while a task is queued. -/
def abandonedSchedule : Schedule Kernel.hz1000 (initial 0) where
  labels := callSchedule 0 (.submit TaskDesc.zero) 10 ++ stopSchedule
  enabled := by decide +kernel

/-- Without the side condition an accepted task is PENDING for ever. -/
theorem accepted_task_abandoned : ¬ CleanShutdown Kernel.hz1000 (fun _ _ => True) := by
  intro clean
  have steps : (machine Kernel.hz1000).StepsWhere (fun _ _ => True) (initial 0)
      abandonedSchedule.trace abandonedSchedule.final :=
    Machine.steps_of_execute abandonedSchedule.executed
  obtain ⟨cut, noted⟩ := steps.noting cutShort
  have reply : abandonedSchedule.final.clients 0 =
      .returned (.submit 0 { TaskDesc.zero with taskId := 1 }) := by decide +kernel
  have stopped := stopped_of_returned (by decide +kernel) reply (by decide +kernel)
  have terminal := (clean 0 _ cut _ noted stopped 0 0 (by decide +kernel)).1
  have pending : (abandonedSchedule.final.dev.tasks 0).state = .pending := by decide +kernel
  rw [pending] at terminal
  simp [Terminal] at terminal

end CortexForge.Concurrent
