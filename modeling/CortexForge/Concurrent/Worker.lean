import CortexForge.Concurrent.Action

/-!
Contract: the worker thread of an accelerator and the thread that stops the
workers, step by step.

Source: `src/accel_manager.c`. `wait_event_interruptible_timeout` is the loop of
the kernel's macro: register on the wait queue, evaluate the two halves of the
condition one after the other, sleep only if no wake-up has arrived since
registering; a wake-up starts the loop again and the timeout ends it. The test
that the macro makes before it registers is left out: it can only skip the wait.

Owns: the program counters and the steps of both kinds of thread, and the list of what one
step of a worker can be.
-/

namespace CortexForge.Concurrent

/-- The body of the worker's loop for the task it has dequeued. -/
inductive WorkPhase where
  | writeRunning
  | raiseLoad
  | testTimeout
  | readClock (timeout : UInt64)
  | testClock (timeout start : UInt64)
  | testState (timeout start : UInt64)
  | sleep (timeout start : UInt64)
  | testStop (timeout start : UInt64)
  | sleepShort
  | readJiffies
  | writeCompleteJiffies (stamp : UInt64)
  | writeComplete
  | writeError
  | lowerLoad
  | completeAll
  | unlink
deriving DecidableEq

inductive WorkerPc where
  | loop
  | prepare
  | testQueue
  | testRunning
  | schedule
  | asleep
  | finishWait
  | recheck
  | dequeue
  | exec (slot : Slot) (phase : WorkPhase)
  | exited
deriving DecidableEq

def execStep (kernel : Kernel) (dev : Dev) (now : UInt64) (accel : AccelIndex) (slot : Slot) :
    WorkPhase → Action × WorkerPc
  | .writeRunning => (.store slot (.state .running), .exec slot .raiseLoad)
  | .raiseLoad => (.touch accel .raiseLoad, .exec slot .testTimeout)
  | .testTimeout =>
      if 0 < (dev.tasks slot).timeoutMs then
        (.tau, .exec slot (.readClock (kernel.msecsToJiffies (dev.tasks slot).timeoutMs)))
      else (.tau, .exec slot .sleepShort)
  | .readClock timeout => (.tau, .exec slot (.testClock timeout now))
  | .testClock timeout start =>
      if now - start < timeout then (.tau, .exec slot (.testState timeout start))
      else (.tau, .exec slot .readJiffies)
  | .testState timeout start =>
      if (dev.tasks slot).state = .running then (.tau, .exec slot (.sleep timeout start))
      else (.tau, .exec slot .readJiffies)
  | .sleep timeout start => (.tau, .exec slot (.testStop timeout start))
  | .testStop timeout start =>
      if (dev.accelerators accel).shouldStop then (.tau, .exec slot .readJiffies)
      else (.tau, .exec slot (.testClock timeout start))
  | .sleepShort => (.tau, .exec slot .readJiffies)
  | .readJiffies => (.tau, .exec slot (.writeCompleteJiffies now))
  | .writeCompleteJiffies stamp =>
      (.store slot (.completeJiffies stamp), .exec slot .writeComplete)
  | .writeComplete => (.store slot (.state .complete), .exec slot .writeError)
  | .writeError => (.store slot (.errorCode 0), .exec slot .lowerLoad)
  | .lowerLoad => (.touch accel .lowerLoad, .exec slot .completeAll)
  | .completeAll => (.store slot .done, .exec slot .unlink)
  | .unlink => (.unlink accel slot, .loop)

/-- One atomic step of `accel_worker_thread`; `expired` says that the timeout
of the wait has run out. -/
def workerStep (kernel : Kernel) (dev : Dev) (now : UInt64) (expired : Bool)
    (accel : AccelIndex) : WorkerPc → Option (Action × WorkerPc)
  | .loop =>
      if (dev.accelerators accel).running then some (.tau, .prepare)
      else some (.tau, .exited)
  | .prepare => some (.touch accel .prepareToWait, .testQueue)
  | .testQueue =>
      if (dev.accelerators accel).taskQueue.isEmpty then some (.tau, .testRunning)
      else some (.tau, .finishWait)
  | .testRunning =>
      if (dev.accelerators accel).running then some (.tau, .schedule)
      else some (.tau, .finishWait)
  | .schedule =>
      if (dev.accelerators accel).workWait.woken then some (.tau, .prepare)
      else some (.tau, .asleep)
  | .asleep =>
      if (dev.accelerators accel).workWait.woken then some (.tau, .prepare)
      else if expired then some (.tau, .finishWait)
      else none
  | .finishWait => some (.touch accel .finishWait, .recheck)
  | .recheck =>
      if (dev.accelerators accel).running then some (.tau, .dequeue)
      else some (.tau, .exited)
  | .dequeue =>
      match (dev.accelerators accel).taskQueue with
      | [] => some (.tau, .loop)
      | slot :: _ => some (.dequeue accel slot, .exec slot .writeRunning)
  | .exec slot phase => some (execStep kernel dev now accel slot phase)
  | .exited => none

/-- The steps of a worker one by one: the tests of its flags and of its queue with their
outcomes, and the body of the loop. -/
inductive WorkerTaken (kernel : Kernel) (dev : Dev) (now : UInt64) (accel : AccelIndex) :
    WorkerPc → Action → WorkerPc → Prop
  | enter (running : (dev.accelerators accel).running = true) :
      WorkerTaken kernel dev now accel .loop .tau .prepare
  | leave (cleared : (dev.accelerators accel).running = false) :
      WorkerTaken kernel dev now accel .loop .tau .exited
  | register : WorkerTaken kernel dev now accel .prepare (.touch accel .prepareToWait) .testQueue
  | seesEmpty (empty : (dev.accelerators accel).taskQueue = []) :
      WorkerTaken kernel dev now accel .testQueue .tau .testRunning
  | seesTask (filled : (dev.accelerators accel).taskQueue ≠ []) :
      WorkerTaken kernel dev now accel .testQueue .tau .finishWait
  | seesRunning (running : (dev.accelerators accel).running = true) :
      WorkerTaken kernel dev now accel .testRunning .tau .schedule
  | seesCleared (cleared : (dev.accelerators accel).running = false) :
      WorkerTaken kernel dev now accel .testRunning .tau .finishWait
  | staysAwake (woken : (dev.accelerators accel).workWait.woken = true) :
      WorkerTaken kernel dev now accel .schedule .tau .prepare
  | fallsAsleep (notWoken : (dev.accelerators accel).workWait.woken = false) :
      WorkerTaken kernel dev now accel .schedule .tau .asleep
  | wakes (woken : (dev.accelerators accel).workWait.woken = true) :
      WorkerTaken kernel dev now accel .asleep .tau .prepare
  | timesOut (notWoken : (dev.accelerators accel).workWait.woken = false) :
      WorkerTaken kernel dev now accel .asleep .tau .finishWait
  | finishWait : WorkerTaken kernel dev now accel .finishWait (.touch accel .finishWait) .recheck
  | goesOn (running : (dev.accelerators accel).running = true) :
      WorkerTaken kernel dev now accel .recheck .tau .dequeue
  | quits (cleared : (dev.accelerators accel).running = false) :
      WorkerTaken kernel dev now accel .recheck .tau .exited
  | findsNone (empty : (dev.accelerators accel).taskQueue = []) :
      WorkerTaken kernel dev now accel .dequeue .tau .loop
  | dequeue (slot : Slot) (rest : List Slot)
      (head : (dev.accelerators accel).taskQueue = slot :: rest) :
      WorkerTaken kernel dev now accel .dequeue (.dequeue accel slot) (.exec slot .writeRunning)
  | exec (slot : Slot) (phase : WorkPhase) :
      WorkerTaken kernel dev now accel (.exec slot phase)
        (execStep kernel dev now accel slot phase).1 (execStep kernel dev now accel slot phase).2

theorem workerTaken_of_step {kernel : Kernel} {dev : Dev} {now : UInt64} {expired : Bool}
    {accel : AccelIndex} {pc next : WorkerPc} {action : Action}
    (taken : workerStep kernel dev now expired accel pc = some (action, next)) :
    WorkerTaken kernel dev now accel pc action next := by
  cases pc with
  | loop =>
      by_cases running : (dev.accelerators accel).running = true
      · rw [workerStep, if_pos running] at taken
        cases taken
        exact .enter running
      · rw [workerStep, if_neg running] at taken
        cases taken
        exact .leave (by simpa using running)
  | prepare =>
      cases taken
      exact .register
  | testQueue =>
      by_cases empty : (dev.accelerators accel).taskQueue.isEmpty = true
      · rw [workerStep, if_pos empty] at taken
        cases taken
        exact .seesEmpty (List.isEmpty_iff.mp empty)
      · rw [workerStep, if_neg empty] at taken
        cases taken
        exact .seesTask (mt List.isEmpty_iff.mpr empty)
  | testRunning =>
      by_cases running : (dev.accelerators accel).running = true
      · rw [workerStep, if_pos running] at taken
        cases taken
        exact .seesRunning running
      · rw [workerStep, if_neg running] at taken
        cases taken
        exact .seesCleared (by simpa using running)
  | schedule =>
      by_cases woken : (dev.accelerators accel).workWait.woken = true
      · rw [workerStep, if_pos woken] at taken
        cases taken
        exact .staysAwake woken
      · rw [workerStep, if_neg woken] at taken
        cases taken
        exact .fallsAsleep (by simpa using woken)
  | asleep =>
      by_cases woken : (dev.accelerators accel).workWait.woken = true
      · rw [workerStep, if_pos woken] at taken
        cases taken
        exact .wakes woken
      · rw [workerStep, if_neg woken] at taken
        split at taken <;> cases taken
        exact .timesOut (by simpa using woken)
  | finishWait =>
      cases taken
      exact .finishWait
  | recheck =>
      by_cases running : (dev.accelerators accel).running = true
      · rw [workerStep, if_pos running] at taken
        cases taken
        exact .goesOn running
      · rw [workerStep, if_neg running] at taken
        cases taken
        exact .quits (by simpa using running)
  | dequeue =>
      cases queue : (dev.accelerators accel).taskQueue with
      | nil =>
          simp only [workerStep, queue] at taken
          cases taken
          exact .findsNone queue
      | cons slot rest =>
          simp only [workerStep, queue] at taken
          cases taken
          exact .dequeue slot rest queue
  | exec slot phase =>
      simp only [workerStep, Option.some.injEq] at taken
      have moved : WorkerTaken kernel dev now accel (.exec slot phase) _ _ := .exec slot phase
      rwa [taken] at moved
  | exited => cases taken

/-- The worker stays with its task until it has unlinked it. -/
theorem execStep_next (kernel : Kernel) (dev : Dev) (now : UInt64) (accel : AccelIndex)
    (slot : Slot) (phase : WorkPhase) :
    (∃ later, (execStep kernel dev now accel slot phase).2 = .exec slot later) ∨
      execStep kernel dev now accel slot phase = (.unlink accel slot, .loop) := by
  cases phase <;> simp only [execStep] <;> (try split) <;> simp

/-! ## Stopping the workers -/

/-- `accel_stop_workers` over the whole array, as `cortex_forge_remove` calls
it. -/
inductive StopperPc where
  | idle
  | test (index : Nat)
  | clearRunning (accel : AccelIndex)
  | wakeUp (accel : AccelIndex)
  | kthreadStop (accel : AccelIndex)
  | join (accel : AccelIndex)
  | clearThread (accel : AccelIndex)
  | returned
deriving DecidableEq

/-- One atomic step of the stopping thread. `kthread_stop` is two steps: the
request, and the wait for the worker to leave its thread function. -/
def stopperStep (dev : Dev) (workers : AccelIndex → WorkerPc) :
    StopperPc → Option (Action × StopperPc)
  | .idle => some (.tau, .test 0)
  | .test index =>
      if inRange : index < numAccelerators then
        if (dev.accelerators ⟨index, inRange⟩).workerThread = .null then
          some (.tau, .test (index + 1))
        else some (.tau, .clearRunning ⟨index, inRange⟩)
      else some (.tau, .returned)
  | .clearRunning accel => some (.touch accel .clearRunning, .wakeUp accel)
  | .wakeUp accel => some (.touch accel .wakeUp, .kthreadStop accel)
  | .kthreadStop accel => some (.touch accel .requestStop, .join accel)
  | .join accel =>
      if workers accel = .exited then some (.tau, .clearThread accel) else none
  | .clearThread accel => some (.touch accel .clearThread, .test (accel.val + 1))
  | .returned => none

end CortexForge.Concurrent
