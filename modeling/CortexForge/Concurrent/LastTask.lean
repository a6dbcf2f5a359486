import CortexForge.Concurrent.Fifo
import CortexForge.Concurrent.Load

/-!
Contract: what a worker still does once its `running` flag is cleared.

The worker reads the flag at the head of its loop, inside its wait and after it. The
last of these tests comes right before the dequeue, so a flag that is cleared between
the two is seen one task late, and never later. A worker that has returned from its
thread function has no task left.

Owns: the bound on what is dequeued after the flag is cleared, and what a worker leaves
behind when it returns.
-/

namespace CortexForge.Concurrent

open CortexForge.Foundation

/-- What a worker leaves behind when it returns from its thread function. -/
structure LeftIdle (system : System) (accel : AccelIndex) : Prop where
  activeTasks : (system.dev.accelerators accel).activeTasks = []
  notRunning : ∀ slot, (system.dev.tasks slot).accelType.toNat = accel.val →
    (system.dev.tasks slot).state ≠ .running
  loadPercent : (system.dev.accelerators accel).loadPercent = 0

/-! ## After the flag is cleared -/

/-- The dequeues a worker has left once its flag is cleared: it has passed its last test
only when it stands right before one. -/
def WorkerPc.dequeuesLeft (pc : WorkerPc) : Nat := if pc = .dequeue then 1 else 0

section Step

variable {kernel : Kernel} {dev : Dev} {now : UInt64} {expired : Bool} {accel : AccelIndex}
  {pc next : WorkerPc} {action : Action}

/-- A worker whose flag is cleared does not come to its dequeue. -/
theorem workerStep_ne_dequeue (cleared : (dev.accelerators accel).running = false)
    (taken : workerStep kernel dev now expired accel pc = some (action, next)) :
    next ≠ .dequeue := by
  cases workerTaken_of_step taken with
  | goesOn running =>
      rw [cleared] at running
      cases running
  | exec slot phase =>
      rcases execStep_next kernel dev now accel slot phase with ⟨later, stays⟩ | unlinks
      · rw [stays]
        exact fun isDequeue => by cases isDequeue
      · rw [unlinks]
        exact fun isDequeue => by cases isDequeue
  | _ => exact fun isDequeue => by cases isDequeue

/-- A worker dequeues nowhere else. -/
theorem workerStep_dequeues (taken : workerStep kernel dev now expired accel pc =
      some (action, next)) :
    (Event.dequeuedBy accel ⟨.worker accel, action⟩).toList.length ≤ pc.dequeuesLeft := by
  have move := workerMove_of_step taken
  cases move with
  | quiet noSlot same =>
      have none : Event.dequeuedBy accel ⟨.worker accel, action⟩ = Option.none := by
        cases action with
        | dequeue target slot => cases noSlot
        | _ => rfl
      rw [none]
      exact Nat.zero_le _
  | dequeue slot rest head => simp [Event.dequeuedBy, WorkerPc.dequeuesLeft]
  | _ => simp [Event.dequeuedBy]

end Step

/-- The flag is cleared, and what has been dequeued since and what may still be come to
one task at most. -/
structure WindsDown (accel : AccelIndex) (since : List Event) (system : System) : Prop where
  cleared : (system.dev.accelerators accel).running = false
  bound : (dequeued accel since).length + (system.workers accel).dequeuesLeft ≤ 1

theorem WindsDown.step {kernel : Kernel} {accel : AccelIndex} {since : List Event}
    {system next : System} {event : Event} (windsDown : WindsDown accel since system)
    (stepped : Stepped kernel system event next) :
    WindsDown accel (since ++ [event]) next := by
  constructor
  · rw [stepped.dev, Action.apply_running]
    split
    · rfl
    · exact windsDown.cleared
  · have bound := windsDown.bound
    rw [dequeued_snoc, List.length_append]
    by_cases own : event.actor = .worker accel
    · obtain ⟨expired, taken⟩ := stepped.workerStep_of_actor own
      have isEvent : event = ⟨.worker accel, event.action⟩ := by rw [← own]
      have dequeues := workerStep_dequeues taken
      rw [← isEvent] at dequeues
      have none : (next.workers accel).dequeuesLeft = 0 :=
        if_neg (workerStep_ne_dequeue windsDown.cleared taken)
      omega
    · have none : Event.dequeuedBy accel event = Option.none := by
        obtain ⟨actor, action⟩ := event
        cases actor with
        | worker other =>
            have different : other ≠ accel := fun same => own (by rw [same])
            cases action <;> simp [Event.dequeuedBy, different]
        | _ => rfl
      rw [none, stepped.workers_of_foreign own]
      simpa using bound

/-! ## When the worker has returned -/

/-- A worker that has returned executes nothing and has taken its load off. -/
theorem leftIdle_of_run {kernel : Kernel} {trace : List Event} {system : System}
    (run : (machine kernel).Run trace system) {accel : AccelIndex}
    (exited : system.workers accel = .exited) : LeftIdle system accel := by
  have inv := inv_of_run run
  constructor
  · rw [inv.executing accel, System.executes, exited]
    rfl
  · intro slot sameAccel running
    obtain ⟨-, other, place⟩ := inv.place_of_running running
    obtain ⟨phase, executes, -⟩ := inv.worker_of_active place
    have target := inv.accelType_of_accel (Point.accel_of_place (Or.inr place))
    have same : other = accel := Fin.ext (target.symm.trans sameAccel)
    rw [same, exited] at executes
    cases executes
  · rw [loads_of_run run accel, exited]
    rfl

/-- From every reachable state: once an accelerator's flag is cleared its worker dequeues
at most one more task, whatever is queued or submitted; and a worker that has returned
has left no active task, no RUNNING task and no load. -/
theorem bounded_work_after_stop (kernel : Kernel) (trace : List Event) (system : System)
    (run : (machine kernel).Run trace system) (accel : AccelIndex) :
    ((system.dev.accelerators accel).running = false →
      ∀ events finish, (machine kernel).Steps system events finish →
        (dequeued accel events).length ≤ 1) ∧
      (system.workers accel = .exited → LeftIdle system accel) := by
  refine ⟨fun cleared events finish steps => ?_, leftIdle_of_run run⟩
  have atStart : WindsDown accel [] system := by
    refine ⟨cleared, ?_⟩
    unfold WorkerPc.dequeuesLeft
    split <;> simp [dequeued]
  have windsDown := steps.invariant_since (WindsDown accel) run atStart
    fun _ _ _ _ _ _ windsDown _ taken => windsDown.step (stepped_of_step taken)
  exact (Nat.le_add_right _ _).trans windsDown.bound

/-- Two tasks are queued; the worker has passed its last test when the flag is
cleared. -/
def lateStopSchedule : Schedule Kernel.hz1000 (initial 0) where
  labels := callSchedule 0 (.submit TaskDesc.zero) 10 ++
    callSchedule 0 (.submit TaskDesc.zero) 10 ++ workSchedule 0 5 ++ List.replicate 3 .stopper
  enabled := by decide +kernel

/-- The worker takes one task through to completion and leaves. -/
def leavingSchedule : Schedule Kernel.hz1000 lateStopSchedule.final where
  labels := workSchedule 0 4 ++ sleepSchedule ++ workSchedule 0 9
  enabled := by decide +kernel

theorem bounded_work_after_stop_late :
    leavingSchedule.final.workers 0 = .exited ∧
      dequeued 0 leavingSchedule.trace = [0] ∧
      (dequeued 0 leavingSchedule.trace).length ≤ 1 ∧ LeftIdle leavingSchedule.final 0 := by
  have steps := Machine.steps_of_execute leavingSchedule.executed
  have cleared : (lateStopSchedule.final.dev.accelerators 0).running = false := by
    decide +kernel
  have exited : leavingSchedule.final.workers 0 = .exited := by decide +kernel
  exact ⟨exited, by decide +kernel,
    (bounded_work_after_stop Kernel.hz1000 _ _ lateStopSchedule.run 0).1 cleared _ _ steps,
    (bounded_work_after_stop Kernel.hz1000 _ _ (lateStopSchedule.run.extend steps) 0).2 exited⟩

end CortexForge.Concurrent
