import CortexForge.Concurrent.Fifo

/-!
Contract: stopping the workers.

`accel_stop_workers` clears an accelerator's `running` flag, wakes its worker, calls
`kthread_stop` and forgets the thread, one accelerator after the other. The worker
leaves its loop when it reads the cleared flag, whether or not `kthread_stop` has
been called. `kthread_run` keeps no reference to the thread for the caller, so
`kthread_stop` is valid only on a worker that has not returned by itself.

The error paths of `cortex_forge_probe` call the same loop, over the whole array or
over the workers started so far, before any client can make a call: the steps they
take are the first steps of runs described here.

Owns: how far the stopping thread has come, what the flags and the workers then are,
and validity of the calls to `kthread_stop`.
-/

namespace CortexForge.Concurrent

open CortexForge.Foundation

/-! ## Progress of the stopping thread -/

/-- How far the stopping thread has come: six positions for each accelerator. -/
def StopperPc.progress : StopperPc → Nat
  | .idle => 0
  | .test index => 6 * index
  | .clearRunning accel => 6 * accel.val + 1
  | .wakeUp accel => 6 * accel.val + 2
  | .kthreadStop accel => 6 * accel.val + 3
  | .join accel => 6 * accel.val + 4
  | .clearThread accel => 6 * accel.val + 5
  | .returned => 6 * numAccelerators

/-- The flag of an accelerator has been cleared. -/
def StopperPc.Cleared (pc : StopperPc) (accel : AccelIndex) : Prop :=
  6 * accel.val + 2 ≤ pc.progress

/-- `kthread_stop` has been called on a worker. -/
def StopperPc.Requested (pc : StopperPc) (accel : AccelIndex) : Prop :=
  6 * accel.val + 4 ≤ pc.progress

/-- `kthread_stop` has returned for a worker. -/
def StopperPc.Joined (pc : StopperPc) (accel : AccelIndex) : Prop :=
  6 * accel.val + 5 ≤ pc.progress

/-- The thread of an accelerator has been forgotten. -/
def StopperPc.Forgotten (pc : StopperPc) (accel : AccelIndex) : Prop :=
  6 * accel.val + 6 ≤ pc.progress

/-- What the flags and the workers are, by the progress of the stopping thread. -/
structure Halting (system : System) : Prop where
  running : ∀ accel,
    (system.dev.accelerators accel).running = false ↔ system.stopper.Cleared accel
  shouldStop : ∀ accel,
    (system.dev.accelerators accel).shouldStop = true ↔ system.stopper.Requested accel
  thread : ∀ accel, (system.dev.accelerators accel).workerThread = .null →
    system.stopper.Forgotten accel
  joined : ∀ accel, system.stopper.Joined accel → system.workers accel = .exited
  exited : ∀ accel, system.workers accel = .exited →
    (system.dev.accelerators accel).running = false

theorem Halting.initial (ticks : Nat) : Halting (initial ticks) where
  running := fun accel => by
    simp [Concurrent.initial, probe, accelInit, StopperPc.Cleared, StopperPc.progress]
  shouldStop := fun accel => by
    rw [show ((Concurrent.initial ticks).dev.accelerators accel).shouldStop = false by
      simp [Concurrent.initial, probe, accelInit, taskPoolInit_eq, Dev.zero, Accel.zero]]
    simp [Concurrent.initial, StopperPc.Requested, StopperPc.progress]
  thread := fun accel isNull => by simp [Concurrent.initial, probe] at isNull
  joined := fun accel joined => by
    simp [Concurrent.initial, StopperPc.Joined, StopperPc.progress] at joined
  exited := fun accel exited => by cases exited

/-! ## One step -/

section Step

variable {kernel : Kernel} {system next : System} {event : Event}

/-- The three flags are the stopping thread's own. -/
theorem Stepped.flags_of_foreign (stepped : Stepped kernel system event next)
    (foreign : event.actor ≠ .stopper) (accel : AccelIndex) :
    (next.dev.accelerators accel).running = (system.dev.accelerators accel).running ∧
      (next.dev.accelerators accel).shouldStop = (system.dev.accelerators accel).shouldStop ∧
      (next.dev.accelerators accel).workerThread =
        (system.dev.accelerators accel).workerThread := by
  have untouched (update : Touch) (owned : update.MadeBy accel event.actor →
      event.actor = .stopper) : event.action ≠ .touch accel update :=
    fun touches => foreign (owned (stepped.madeBy touches))
  rw [stepped.dev, Action.apply_running, Action.apply_shouldStop, Action.apply_workerThread,
    if_neg (untouched .clearRunning id), if_neg (untouched .requestStop id),
    if_neg (untouched .clearThread id)]
  exact ⟨rfl, rfl, rfl⟩

/-- A worker leaves its thread function where it tests the cleared flag. -/
theorem workerStep_exited {dev : Dev} {now : UInt64} {expired : Bool} {accel : AccelIndex}
    {pc : WorkerPc} {action : Action}
    (taken : workerStep kernel dev now expired accel pc = some (action, .exited)) :
    action = .tau ∧ (pc = .loop ∨ pc = .recheck) ∧
      (dev.accelerators accel).running = false := by
  generalize isExited : WorkerPc.exited = next at taken
  cases workerTaken_of_step taken with
  | leave cleared => exact ⟨rfl, Or.inl rfl, cleared⟩
  | quits cleared => exact ⟨rfl, Or.inr rfl, cleared⟩
  | exec slot phase =>
      rcases execStep_next kernel dev now accel slot phase with ⟨later, stays⟩ | unlinks
      · rw [stays] at isExited
        cases isExited
      · rw [unlinks] at isExited
        cases isExited
  | _ => cases isExited

end Step

/-! ## The stopping thread's own step -/

section Stopper

variable {dev : Dev} {workers : AccelIndex → WorkerPc} {before after : StopperPc}
  {action : Action}

/-- What one step adds to the progress, as long as the loop meets no thread that has
been forgotten already. -/
theorem StopperMove.progress (move : StopperMove dev workers before action after)
    (turn : ∀ accel : AccelIndex, before = .test accel.val →
      (dev.accelerators accel).workerThread ≠ .null) (accel : AccelIndex) :
    (after.Cleared accel ↔ before.Cleared accel ∨ action = .touch accel .clearRunning) ∧
      (after.Requested accel ↔
        before.Requested accel ∨ action = .touch accel .requestStop) ∧
      (after.Forgotten accel ↔
        before.Forgotten accel ∨ action = .touch accel .clearThread) ∧
      (after.Joined accel ↔ before.Joined accel ∨ before = .join accel) := by
  have inRange : accel.val < numAccelerators := accel.isLt
  unfold StopperPc.Cleared StopperPc.Requested StopperPc.Forgotten StopperPc.Joined
  cases move with
  | enter => simp [StopperPc.progress]
  | skip index stopped => exact absurd stopped (turn index rfl)
  | finish index past =>
      simp only [StopperPc.progress, reduceCtorEq, or_false]
      omega
  | _ =>
      simp only [StopperPc.progress, reduceCtorEq, or_false, Action.touch.injEq, and_true,
        and_false, StopperPc.join.injEq, Fin.ext_iff]
      omega

end Stopper

section Step

variable {kernel : Kernel} {system next : System} {event : Event}

private theorem Halting.stopper_step (halting : Halting system)
    (stepped : Stepped kernel system event next) (own : event.actor = .stopper) :
    Halting next := by
  have move := stopperMove_of_step (stepped.stopperStep_of_actor own)
  have workers (accel : AccelIndex) : next.workers accel = system.workers accel :=
    stepped.workers_of_foreign (by rw [own]; simp)
  have progress := move.progress (fun accel testing isNull => by
    have forgotten := halting.thread accel isNull
    rw [testing, StopperPc.Forgotten, StopperPc.progress] at forgotten
    omega)
  constructor
  · intro accel
    rw [stepped.dev, Action.apply_running, (progress accel).1, ← halting.running accel]
    split
    next clears => simp [clears]
    next keeps => simp [keeps]
  · intro accel
    rw [stepped.dev, Action.apply_shouldStop, (progress accel).2.1, ← halting.shouldStop accel]
    split
    next requests => simp [requests]
    next keeps => simp [keeps]
  · intro accel isNull
    rw [stepped.dev, Action.apply_workerThread] at isNull
    rw [(progress accel).2.2.1]
    split at isNull
    next forgets => exact Or.inr forgets
    next => exact Or.inl (halting.thread accel isNull)
  · intro accel joined
    rw [workers]
    rcases (progress accel).2.2.2.mp joined with before | joining
    · exact halting.joined accel before
    · -- `kthread_stop` returns only when the worker has left its thread function.
      rw [joining] at move
      generalize event.action = action, next.stopper = after at move
      cases move with
      | join _ exited => exact exited
  · intro accel exited
    rw [workers] at exited
    rw [stepped.dev, Action.apply_running]
    split
    · rfl
    · exact halting.exited accel exited

/-- Every step keeps the flags and the workers in line with the stopping thread. -/
theorem Halting.step (halting : Halting system) (stepped : Stepped kernel system event next) :
    Halting next := by
  by_cases own : event.actor = .stopper
  · exact halting.stopper_step stepped own
  · have flags := stepped.flags_of_foreign own
    have stopper := stepped.stopper_of_foreign own
    constructor
    · intro accel
      rw [(flags accel).1, stopper]
      exact halting.running accel
    · intro accel
      rw [(flags accel).2.1, stopper]
      exact halting.shouldStop accel
    · intro accel
      rw [(flags accel).2.2, stopper]
      exact halting.thread accel
    · intro accel joined
      rw [stopper] at joined
      have exited := halting.joined accel joined
      by_cases isWorker : event.actor = .worker accel
      · -- A worker that has left takes no step.
        obtain ⟨expired, taken⟩ := stepped.workerStep_of_actor isWorker
        rw [exited] at taken
        cases taken
      · rw [stepped.workers_of_foreign isWorker, exited]
    · intro accel exited
      rw [(flags accel).1]
      by_cases isWorker : event.actor = .worker accel
      · obtain ⟨expired, taken⟩ := stepped.workerStep_of_actor isWorker
        rw [exited] at taken
        exact (workerStep_exited taken).2.2
      · rw [stepped.workers_of_foreign isWorker] at exited
        exact halting.exited accel exited

end Step

theorem halting_of_run {kernel : Kernel} {trace : List Event} {system : System}
    (run : (machine kernel).Run trace system) : Halting system := by
  refine run.invariant (fun _ => Halting) ?_ ?_
  · rintro _ ⟨ticks, rfl⟩
    exact Halting.initial ticks
  · intro trace system label event next _ halting taken
    exact halting.step (stepped_of_step taken)

/-! ## Calls to `kthread_stop` -/

/-- A worker reads the cleared flag while the stopping thread has still to call
`kthread_stop` on it. -/
def LeavesEarly (system : System) (event : Event) : Prop :=
  ∃ accel, event.actor = .worker accel ∧
    (system.workers accel = .loop ∨ system.workers accel = .recheck) ∧
    (system.dev.accelerators accel).running = false ∧
    (system.stopper = .wakeUp accel ∨ system.stopper = .kthreadStop accel)

/-- The step is not that of a worker leaving before its stop request. -/
def AwaitsStop (system : System) (event : Event) : Prop := ¬ LeavesEarly system event

instance (system : System) (event : Event) : Decidable (AwaitsStop system event) :=
  inferInstanceAs (Decidable (¬ ∃ _, _))

/-- Past the window, a cleared flag goes with a stop request. -/
theorem StopperPc.requested_of_cleared {pc : StopperPc} {accel : AccelIndex}
    (cleared : pc.Cleared accel) (notWaking : pc ≠ .wakeUp accel)
    (notCalling : pc ≠ .kthreadStop accel) : pc.Requested accel := by
  unfold StopperPc.Cleared at cleared
  unfold StopperPc.Requested
  cases pc with
  | wakeUp other =>
      have different : other.val ≠ accel.val := fun same => notWaking (by rw [Fin.ext same])
      simp only [StopperPc.progress] at cleared ⊢
      omega
  | kthreadStop other =>
      have different : other.val ≠ accel.val := fun same => notCalling (by rw [Fin.ext same])
      simp only [StopperPc.progress] at cleared ⊢
      omega
  | returned =>
      have inRange : accel.val < numAccelerators := accel.isLt
      simp only [StopperPc.progress]
      omega
  | _ =>
      simp only [StopperPc.progress] at cleared ⊢
      omega

/-- A worker that waits for its stop request leaves only after it. -/
theorem requested_of_exited_step {kernel : Kernel} {system next : System} {event : Event}
    {accel : AccelIndex} (halting : Halting system)
    (stepped : Stepped kernel system event next) (awaits : AwaitsStop system event)
    (sofar : system.workers accel = .exited →
      (system.dev.accelerators accel).shouldStop = true)
    (exited : next.workers accel = .exited) :
    (next.dev.accelerators accel).shouldStop = true := by
  have requested : (system.dev.accelerators accel).shouldStop = true := by
    by_cases own : event.actor = .worker accel
    · obtain ⟨expired, taken⟩ := stepped.workerStep_of_actor own
      rw [exited] at taken
      obtain ⟨-, testing, cleared⟩ := workerStep_exited taken
      have outside (window : system.stopper = .wakeUp accel ∨
          system.stopper = .kthreadStop accel) : False :=
        awaits ⟨accel, own, testing, cleared, window⟩
      refine (halting.shouldStop accel).mpr ?_
      exact StopperPc.requested_of_cleared ((halting.running accel).mp cleared)
        (fun waking => outside (Or.inl waking)) (fun calling => outside (Or.inr calling))
    · rw [stepped.workers_of_foreign own] at exited
      exact sofar exited
  rw [stepped.dev, Action.apply_shouldStop]
  split
  · rfl
  · exact requested

/-- In every run in which no worker leaves before its stop request, `kthread_stop` is
only called on workers that have not returned. -/
theorem kthreadStop_valid_of_awaitsStop (kernel : Kernel) (ticks : Nat) (trace : List Event)
    (system : System)
    (steps : (machine kernel).StepsWhere AwaitsStop (initial ticks) trace system)
    (accel : AccelIndex) (calling : system.stopper = .kthreadStop accel) :
    system.workers accel ≠ .exited := by
  have start := run_initial kernel ticks
  have requested := steps.invariant (fun _ state => ∀ accel,
    state.workers accel = .exited → (state.dev.accelerators accel).shouldStop = true) start
    (fun _ exited => by cases exited) ?_
  · intro exited
    have called := (halting_of_run (start.extend steps.steps)).shouldStop accel
    rw [calling, StopperPc.Requested, StopperPc.progress] at called
    have past := called.mp (requested accel exited)
    omega
  · intro history state label event next reached sofar awaits taken accel
    exact requested_of_exited_step (halting_of_run reached) (stepped_of_step taken) awaits
      (sofar accel)

/-- The first worker is stopped, and the second is about to be. -/
def stopSecondSchedule : Schedule Kernel.hz1000 (initial 0) where
  labels := List.replicate 5 .stopper ++ workSchedule 0 1 ++ List.replicate 5 .stopper
  enabled := by decide +kernel

theorem kthreadStop_valid_second : stopSecondSchedule.final.workers 1 ≠ .exited := by
  have steps := stopSecondSchedule.stepsWhere AwaitsStop (by decide +kernel)
  exact kthreadStop_valid_of_awaitsStop Kernel.hz1000 0 _ _ steps 1 (by decide +kernel)

/-- The first worker leaves as soon as its flag is cleared. -/
def leaveEarlySchedule : Schedule Kernel.hz1000 (initial 0) where
  labels := List.replicate 3 .stopper ++ workSchedule 0 1 ++ List.replicate 1 .stopper
  enabled := by decide +kernel

/-- Without the side condition `kthread_stop` is called on a worker that has
returned. -/
theorem kthreadStop_on_returned_worker :
    ¬ ∀ trace system accel, (machine Kernel.hz1000).Run trace system →
      system.stopper = .kthreadStop accel → system.workers accel ≠ .exited := by
  intro valid
  exact valid _ _ 0 leaveEarlySchedule.run (by decide +kernel) (by decide +kernel)

end CortexForge.Concurrent
