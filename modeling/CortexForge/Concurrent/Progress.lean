import CortexForge.Foundation.Progress
import CortexForge.Concurrent.Wakeup

/-!
Contract: what has been told to end comes closer to its end with every step.

A worker that `kthread_stop` has been called on does not go round the wait of its task again,
because it polls `kthread_should_stop` there, and the wake-up that goes with the request
cannot be missed. A worker whose task is cancelled in the wait likewise leaves it. The
thread in `accel_stop_workers` goes through the array once.

A step of this machine is charged what it costs in the driver with its locks
(`Concurrent.Locked`), so that the bounds hold there too. They do not depend on the clock, on
the other threads, or on the length of any queue.

Owns: the ranks of a worker and of the stopping thread, and that every step of theirs is paid
for.

Does not own: whether a thread can take its next step, which is a matter of the locks
(`Concurrent.Liveness`).
-/

namespace CortexForge.Concurrent

open CortexForge.Foundation

/-- The steps that the driver with its locks takes for one step of a worker: taking and giving
back the mutex, and the accesses in between. -/
def WorkerPc.cost : WorkerPc → Nat
  | .dequeue => 15
  | .exec _ .raiseLoad | .exec _ .lowerLoad => 2
  | .exec _ .unlink => 8
  | _ => 1

theorem WorkerPc.cost_pos (pc : WorkerPc) : 0 < pc.cost := by
  cases pc with
  | exec slot phase => cases phase <;> simp [cost]
  | _ => simp [cost]

/-! ## A worker that has been told to stop -/

section Worker

variable {kernel : Kernel} {dev : Dev} {now : UInt64} {expired : Bool} {accel : AccelIndex}
  {pc next : WorkerPc} {action : Action}

/-- A worker that has not left can take a step, unless it sleeps and has not been woken. -/
theorem workerStep_isSome (kernel : Kernel) (dev : Dev) (now : UInt64) (accel : AccelIndex)
    {pc : WorkerPc} (notExited : pc ≠ .exited)
    (awake : pc = .asleep → (dev.accelerators accel).workWait.woken = true) :
    (workerStep kernel dev now false accel pc).isSome := by
  cases pc with
  | exited => exact absurd rfl notExited
  | asleep => simp [workerStep, awake rfl]
  | dequeue =>
      simp only [workerStep]
      split <;> rfl
  | prepare => rfl
  | finishWait => rfl
  | exec slot phase => rfl
  | _ =>
      simp only [workerStep]
      split <;> rfl

/-- A sleep ends at the latest when its timeout expires. -/
theorem workerStep_isSome_of_expired (kernel : Kernel) (dev : Dev) (now : UInt64)
    (accel : AccelIndex) {pc : WorkerPc} (notExited : pc ≠ .exited) :
    (workerStep kernel dev now true accel pc).isSome := by
  by_cases asleep : pc = .asleep
  · subst asleep
    simp only [workerStep, ↓reduceIte]
    split <;> rfl
  · have awake := workerStep_isSome kernel dev now accel notExited fun same => absurd same asleep
    cases pc with
    | asleep => exact absurd rfl asleep
    | _ => exact awake

end Worker

theorem StopperPc.Requested.cleared {pc : StopperPc} {accel : AccelIndex}
    (requested : pc.Requested accel) : pc.Cleared accel := by
  unfold StopperPc.Requested at requested
  unfold StopperPc.Cleared
  omega

section Stop

variable {kernel : Kernel} {trace : List Event} {system next : System} {event : Event}
  {accel : AccelIndex}

/-- A request is never withdrawn. -/
theorem Stepped.shouldStop (stepped : Stepped kernel system event next)
    (requested : (system.dev.accelerators accel).shouldStop = true) :
    (next.dev.accelerators accel).shouldStop = true := by
  rw [stepped.dev, Action.apply_shouldStop]
  split
  · rfl
  · exact requested

end Stop

/-! ## The stopping thread -/

/-- The most steps the stopping thread still takes. -/
def StopperPc.remaining : StopperPc → Nat
  | .idle => 6 * numAccelerators + 2
  | .test index => 6 * (numAccelerators - index) + 1
  | .clearRunning accel => 6 * (numAccelerators - accel.val)
  | .wakeUp accel => 6 * (numAccelerators - accel.val) - 1
  | .kthreadStop accel => 6 * (numAccelerators - accel.val) - 2
  | .join accel => 6 * (numAccelerators - accel.val) - 3
  | .clearThread accel => 6 * (numAccelerators - accel.val) - 4
  | .returned => 0

/-- Every step of the stopping thread is one of those left. -/
theorem StopperMove.remaining {dev : Dev} {workers : AccelIndex → WorkerPc}
    {before after : StopperPc} {action : Action}
    (move : StopperMove dev workers before action after) : after.remaining < before.remaining := by
  cases move with
  | enter => decide
  | finish index past => simp [StopperPc.remaining]
  | _ accel =>
      have inRange := accel.isLt
      simp only [StopperPc.remaining]
      omega

/-! ## A worker whose task is cancelled -/

/-- The most steps a worker takes until it has unlinked a task that it does not find RUNNING
any more. -/
def WorkPhase.untilUnlinked : WorkPhase → Nat
  | .writeRunning => 22
  | .raiseLoad => 21
  | .testTimeout | .sleep _ _ => 19
  | .readClock _ | .testStop _ _ => 18
  | .testClock _ _ => 17
  | .testState _ _ | .sleepShort => 16
  | .readJiffies => 15
  | .writeCompleteJiffies _ => 14
  | .writeComplete => 13
  | .writeError => 12
  | .lowerLoad => 11
  | .completeAll => 9
  | .unlink => 8

/-- The worker executes the slot, and the state it has stored there as RUNNING has been
overwritten. -/
def Withdrawing (accel : AccelIndex) (slot : Slot) (system : System) : Prop :=
  ∃ phase, system.workers accel = .exec slot phase ∧ phase ≠ .writeRunning ∧
    (system.dev.tasks slot).state ≠ .running

/-- The rank of a worker that executes a task. -/
def WorkerPc.untilUnlinked : WorkerPc → Nat
  | .exec _ phase => phase.untilUnlinked
  | _ => 0

theorem Withdrawing.rank {accel : AccelIndex} {slot : Slot} {system : System}
    (withdrawing : Withdrawing accel slot system) :
    (system.workers accel).cost ≤ (system.workers accel).untilUnlinked ∧
      (system.workers accel).untilUnlinked ≤ 21 := by
  obtain ⟨phase, executes, started, -⟩ := withdrawing
  rw [executes]
  cases phase <;> simp [WorkerPc.untilUnlinked, WorkPhase.untilUnlinked, WorkerPc.cost] at started ⊢

end CortexForge.Concurrent
