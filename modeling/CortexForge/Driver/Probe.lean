import CortexForge.Driver.AccelManager

/-!
Contract: which worker threads are started and stopped between probe and remove.

Sources: `accel_start_workers` and `accel_stop_workers` of `src/accel_manager.c`,
`cortex_forge_probe` and `cortex_forge_remove` of `src/main.c`. The functions run here
without the workers; what a call of the kernel returns is given by the environment of
the probe. Every call of `kthread_run` and `kthread_stop` is logged with its pointer.

The array may have any length: `num` is the argument of the two loops, and the
driver's own arrays have `NUM_ACCELERATORS` elements.

Owns: the two loops, the exits of probe, remove, and the bookkeeping of the threads.

Does not own: the character device, whose registration is undone on the same exits and
touches no worker, and how a worker reacts to being stopped (`Concurrent.Stopping`).
-/

namespace CortexForge

/-! ## The kernel's answers -/

/-- The error of an `ERR_PTR`: `-MAX_ERRNO` to `-1`. -/
structure ErrPtr where
  code : Int32
  low : -4095 ≤ code
  high : code < 0

theorem ErrPtr.code_ne_zero (error : ErrPtr) : error.code ≠ 0 := by
  intro zero
  have high := error.high
  rw [zero] at high
  exact absurd high (by decide)

/-- What `kthread_run` comes to. -/
inductive KthreadRun where
  | started
  | failed (error : ErrPtr)

/-- A call of the kernel's thread interface for the worker of one array element, with
the pointer that was returned or passed. -/
inductive WorkerCall where
  | kthreadRun (index : Nat) (result : ThreadPtr)
  | kthreadStop (index : Nat) (pointer : ThreadPtr)
deriving DecidableEq

/-- The array of accelerators and the calls made for its workers so far. -/
structure Workers where
  accelerators : Nat → Accel
  calls : List WorkerCall

/-- What the probe meets: the outcome of acquiring memory, clocks, reset and interrupt
(0 or the first error), of each `kthread_run`, and of the three steps that register the
character device. -/
structure ProbeEnv where
  acquire : Int32
  kthreadRun : Nat → KthreadRun
  allocChrdevRegion : Int32
  cdevAdd : Int32
  deviceCreate : Option ErrPtr

/-! ## The two loops -/

/-- `accelerators[index].worker_thread = kthread_run(...)`. -/
def Workers.start (workers : Workers) (index : Nat) (result : ThreadPtr) : Workers where
  accelerators := Function.update workers.accelerators index
    { workers.accelerators index with workerThread := result }
  calls := workers.calls ++ [.kthreadRun index result]

/-- What the four statements by which `accel_stop_workers` stops one worker make of its
accelerator: the wake-up and `kthread_stop` both wake it, and `kthread_stop` sets the flag that
`kthread_should_stop` reads. The call itself is logged in `accelStopWorker`. -/
def accelStop (accel : Accel) : Accel :=
  { accel with
    running := false
    workWait := accel.workWait.wakeUp.wakeUp
    shouldStop := true
    workerThread := .null }

/-- The body of the loop of `accel_stop_workers`. -/
def accelStopWorker (workers : Workers) (index : Nat) : Workers :=
  if (workers.accelerators index).workerThread = .null then workers
  else
    { accelerators := Function.update workers.accelerators index
        (accelStop (workers.accelerators index))
      calls := workers.calls ++
        [.kthreadStop index (workers.accelerators index).workerThread] }

/-- `accel_stop_workers`. -/
def accelStopWorkers (num : Nat) (workers : Workers) : Workers :=
  (List.range num).foldl accelStopWorker workers

/-- The loop of `accel_start_workers` from `index` on: the index at which it is left and
the error, if any, that leaves it there. -/
def accelStartLoop (kthreadRun : Nat → KthreadRun) :
    (remaining index : Nat) → Workers → Nat × Option ErrPtr × Workers
  | 0, index, workers => (index, none, workers)
  | remaining + 1, index, workers =>
      match kthreadRun index with
      | .started =>
          accelStartLoop kthreadRun remaining (index + 1) (workers.start index .thread)
      | .failed error => (index, some error, workers.start index (.err error.code))

/-- `accel_start_workers`. -/
def accelStartWorkers (kthreadRun : Nat → KthreadRun) (num : Nat) (workers : Workers) :
    Int32 × Workers :=
  match accelStartLoop kthreadRun num 0 workers with
  | (_, none, workers) => (0, workers)
  | (index, some error, workers) => (error.code, accelStopWorkers index workers)

/-! ## Probe and remove -/

/-- The zeroed array after `accel_init` of each element. -/
def Workers.init (identity : Nat → UInt32 × String) : Workers where
  accelerators := fun index => accelInit (identity index).1 (identity index).2 Accel.zero
  calls := []

/-- `cortex_forge_probe`: its return value and the array it leaves. -/
def cortexForgeProbe (num : Nat) (identity : Nat → UInt32 × String) (env : ProbeEnv) :
    Int32 × Workers :=
  if env.acquire ≠ 0 then (env.acquire, Workers.init identity)
  else
    match accelStartWorkers env.kthreadRun num (Workers.init identity) with
    | (ret, workers) =>
        if ret ≠ 0 then (ret, workers)
        else if env.allocChrdevRegion ≠ 0 then
          (env.allocChrdevRegion, accelStopWorkers num workers)
        else if env.cdevAdd ≠ 0 then (env.cdevAdd, accelStopWorkers num workers)
        else
          match env.deviceCreate with
          | some error => (error.code, accelStopWorkers num workers)
          | none => (0, workers)

/-- `cortex_forge_remove`. -/
def cortexForgeRemove (num : Nat) (workers : Workers) : Workers := accelStopWorkers num workers

/-! ## What the log says -/

/-- The workers whose `kthread_run` returned a thread, in order. -/
def startedWorkers (calls : List WorkerCall) : List Nat :=
  calls.filterMap fun call => match call with
    | .kthreadRun index .thread => some index
    | _ => none

/-- The calls of `kthread_stop`, in order. -/
def stopCalls (calls : List WorkerCall) : List (Nat × ThreadPtr) :=
  calls.filterMap fun call => match call with
    | .kthreadStop index pointer => some (index, pointer)
    | _ => none

/-- Every started worker, and nothing else, has been passed to `kthread_stop` exactly
once, through the pointer to its thread. -/
def StoppedOnce (calls : List WorkerCall) : Prop :=
  (startedWorkers calls).Nodup ∧
    stopCalls calls = (startedWorkers calls).map fun index => (index, .thread)

/-! ## The loop of `accel_start_workers` -/

/-- The array after the first `count` workers have been started. -/
def Workers.startUpTo (workers : Workers) (count : Nat) : Workers :=
  (List.range count).foldl (fun workers index => workers.start index .thread) workers

theorem Workers.startUpTo_succ (workers : Workers) (count : Nat) :
    workers.startUpTo (count + 1) = (workers.startUpTo count).start count .thread := by
  simp [startUpTo, List.range_succ]

theorem Workers.startUpTo_calls (workers : Workers) (count : Nat) :
    (workers.startUpTo count).calls =
      workers.calls ++ (List.range count).map fun index => .kthreadRun index .thread := by
  induction count with
  | zero => simp [startUpTo]
  | succ count inductionHypothesis =>
      rw [startUpTo_succ, List.range_succ, List.map_append, ← List.append_assoc,
        ← inductionHypothesis]
      rfl

theorem Workers.startUpTo_accelerators (workers : Workers) (count index : Nat) :
    (workers.startUpTo count).accelerators index =
      if index < count then { workers.accelerators index with workerThread := .thread }
      else workers.accelerators index := by
  induction count with
  | zero => simp [startUpTo]
  | succ count inductionHypothesis =>
      rw [startUpTo_succ, start]
      by_cases isLast : index = count
      · subst isLast
        simp [inductionHypothesis]
      · simp only [Function.update_of_ne isLast, inductionHypothesis]
        have sameSide : index < count ↔ index < count + 1 := by omega
        simp only [sameSide]

theorem Workers.startUpTo_thread (workers : Workers) {count index : Nat}
    (started : index < count) :
    ((workers.startUpTo count).accelerators index).workerThread = .thread := by
  rw [startUpTo_accelerators, if_pos started]

section Start

variable {kthreadRun : Nat → KthreadRun} (workers : Workers)

/-- Where every `kthread_run` succeeds, the loop runs to its end. -/
theorem accelStartLoop_of_started (remaining index : Nat)
    (started : ∀ later, index ≤ later → later < index + remaining →
      kthreadRun later = .started) :
    accelStartLoop kthreadRun remaining index (workers.startUpTo index) =
      (index + remaining, none, workers.startUpTo (index + remaining)) := by
  induction remaining generalizing index with
  | zero => rfl
  | succ remaining inductionHypothesis =>
      rw [accelStartLoop, started index le_rfl (by omega)]
      have rest := inductionHypothesis (index + 1) fun later _ below =>
        started later (by omega) (by omega)
      simp only [← workers.startUpTo_succ, rest, Nat.add_assoc, Nat.add_comm 1]

/-- Otherwise the first failure leaves it. -/
theorem accelStartLoop_of_failed (remaining index : Nat) {failing : Nat} {error : ErrPtr}
    (above : index ≤ failing) (below : failing < index + remaining)
    (started : ∀ earlier, index ≤ earlier → earlier < failing →
      kthreadRun earlier = .started)
    (failed : kthreadRun failing = .failed error) :
    accelStartLoop kthreadRun remaining index (workers.startUpTo index) =
      (failing, some error, (workers.startUpTo failing).start failing (.err error.code)) := by
  induction remaining generalizing index with
  | zero => omega
  | succ remaining inductionHypothesis =>
      rw [accelStartLoop]
      by_cases here : failing = index
      · subst here
        rw [failed]
      · rw [started index le_rfl (by omega)]
        simp only [← workers.startUpTo_succ]
        exact inductionHypothesis (index + 1) (by omega) (by omega) fun earlier least =>
          started earlier (by omega)

theorem accelStartWorkers_of_started {num : Nat}
    (started : ∀ index < num, kthreadRun index = .started) :
    accelStartWorkers kthreadRun num workers = (0, workers.startUpTo num) := by
  have loop := accelStartLoop_of_started workers num 0 fun later _ below =>
    started later (by omega)
  rw [Nat.zero_add, show workers.startUpTo 0 = workers from rfl] at loop
  simp only [accelStartWorkers, loop]

theorem accelStartWorkers_of_failed {num failing : Nat} {error : ErrPtr}
    (below : failing < num) (started : ∀ index < failing, kthreadRun index = .started)
    (failed : kthreadRun failing = .failed error) :
    accelStartWorkers kthreadRun num workers =
      (error.code, accelStopWorkers failing
        ((workers.startUpTo failing).start failing (.err error.code))) := by
  have loop := accelStartLoop_of_failed workers num 0 (Nat.zero_le failing) (by omega)
    (fun earlier _ before => started earlier before) failed
  rw [show workers.startUpTo 0 = workers from rfl] at loop
  simp only [accelStartWorkers, loop]

end Start

/-- Either all workers are started, or one is the first that is not. -/
theorem started_or_failed (kthreadRun : Nat → KthreadRun) (num : Nat) :
    (∀ index < num, kthreadRun index = .started) ∨
      ∃ failing error, failing < num ∧ (∀ index < failing, kthreadRun index = .started) ∧
        kthreadRun failing = .failed error := by
  induction num with
  | zero => exact Or.inl fun index below => absurd below (Nat.not_lt_zero index)
  | succ num inductionHypothesis =>
      rcases inductionHypothesis with started | ⟨failing, error, below, started, failed⟩
      · cases last : kthreadRun num with
        | started =>
            refine Or.inl fun index below => ?_
            by_cases isLast : index = num
            · rw [isLast, last]
            · exact started index (by omega)
        | failed error => exact Or.inr ⟨num, error, Nat.lt_succ_self num, started, last⟩
      · exact Or.inr ⟨failing, error, by omega, started, failed⟩

/-! ## The loop of `accel_stop_workers` -/

theorem accelStopWorkers_succ (num : Nat) (workers : Workers) :
    accelStopWorkers (num + 1) workers =
      accelStopWorker (accelStopWorkers num workers) num := by
  simp [accelStopWorkers, List.range_succ]

/-- Where the first `num` workers run, the loop stops each of them and leaves the rest of the
array alone. -/
theorem accelStopWorkers_accelerators {num : Nat} (workers : Workers)
    (running : ∀ index < num, (workers.accelerators index).workerThread = .thread)
    (index : Nat) :
    (accelStopWorkers num workers).accelerators index =
      if index < num then accelStop (workers.accelerators index)
      else workers.accelerators index := by
  induction num with
  | zero => rfl
  | succ num inductionHypothesis =>
      have before := inductionHypothesis fun index below => running index (by omega)
      rw [accelStopWorkers_succ, accelStopWorker]
      by_cases isLast : index = num
      · subst isLast
        rw [if_neg (Nat.lt_irrefl index)] at before
        simp [before, running index (Nat.lt_succ_self index)]
      · have sameSide : index < num + 1 ↔ index < num := by omega
        simp only [sameSide, ← before]
        split
        · rfl
        · exact Function.update_of_ne isLast _ _

/-- The calls of the loop, in order. -/
theorem accelStopWorkers_spec {num : Nat} (workers : Workers)
    (running : ∀ index < num, (workers.accelerators index).workerThread = .thread) :
    (accelStopWorkers num workers).calls =
        workers.calls ++ (List.range num).map (fun index => .kthreadStop index .thread) ∧
      ∀ index, num ≤ index →
        (accelStopWorkers num workers).accelerators index = workers.accelerators index := by
  refine ⟨?_, fun index beyond => ?_⟩
  · induction num with
    | zero => simp [accelStopWorkers]
    | succ num inductionHypothesis =>
        have earlier (index : Nat) (below : index < num) :
            (workers.accelerators index).workerThread = .thread := running index (by omega)
        have last : ((accelStopWorkers num workers).accelerators num).workerThread =
            .thread := by
          rw [accelStopWorkers_accelerators workers earlier, if_neg (Nat.lt_irrefl num)]
          exact running num (Nat.lt_succ_self num)
        rw [accelStopWorkers_succ, accelStopWorker, last, if_neg (by simp),
          inductionHypothesis earlier, List.range_succ, List.map_append, ← List.append_assoc]
        rfl
  · rw [accelStopWorkers_accelerators workers running, if_neg (Nat.not_lt.mpr beyond)]

/-- A stopped element is marked as stopped: its flag is cleared and its thread forgotten. -/
theorem accelStopWorkers_stopped {num : Nat} (workers : Workers)
    (running : ∀ index < num, (workers.accelerators index).workerThread = .thread)
    {index : Nat} (below : index < num) :
    ((accelStopWorkers num workers).accelerators index).running = false ∧
      ((accelStopWorkers num workers).accelerators index).workerThread = .null := by
  rw [accelStopWorkers_accelerators workers running, if_pos below]
  exact ⟨rfl, rfl⟩

/-- Elements without a thread are passed over. -/
theorem accelStopWorkers_of_null {num : Nat} (workers : Workers)
    (stopped : ∀ index < num, (workers.accelerators index).workerThread = .null) :
    accelStopWorkers num workers = workers := by
  induction num with
  | zero => rfl
  | succ num inductionHypothesis =>
      rw [accelStopWorkers_succ, inductionHypothesis fun index below => stopped index (by omega),
        accelStopWorker, if_pos (stopped num (Nat.lt_succ_self num))]

/-- So stopping the workers again stops none of them twice. -/
theorem accelStopWorkers_again {num : Nat} (workers : Workers)
    (running : ∀ index < num, (workers.accelerators index).workerThread = .thread) :
    accelStopWorkers num (accelStopWorkers num workers) = accelStopWorkers num workers :=
  accelStopWorkers_of_null _ fun _ below => (accelStopWorkers_stopped workers running below).2

/-! ## Bookkeeping -/

/-- The log of `count` starts, a start that failed or nothing, and `count` stops. -/
private theorem stoppedOnce_of_calls (count : Nat) {between : List WorkerCall}
    (noStart : startedWorkers between = []) (noStop : stopCalls between = []) :
    StoppedOnce ((List.range count).map (fun index => .kthreadRun index .thread) ++ between ++
      (List.range count).map fun index => .kthreadStop index .thread) := by
  unfold startedWorkers at noStart
  unfold stopCalls at noStop
  have started : startedWorkers ((List.range count).map
      (fun index => .kthreadRun index .thread) ++ between ++
      (List.range count).map fun index => .kthreadStop index .thread) = List.range count := by
    simp [startedWorkers, noStart, List.filterMap_map]
  refine ⟨by rw [started]; exact List.nodup_range, ?_⟩
  rw [started]
  simp [stopCalls, noStop, List.filterMap_map]

/-- A later failure stops every worker that was started. -/
private theorem stoppedOnce_of_stop (num : Nat) (identity : Nat → UInt32 × String) :
    StoppedOnce (accelStopWorkers num ((Workers.init identity).startUpTo num)).calls := by
  obtain ⟨calls, -⟩ := accelStopWorkers_spec ((Workers.init identity).startUpTo num)
    fun index below => (Workers.init identity).startUpTo_thread below
  rw [calls, Workers.startUpTo_calls]
  have log := stoppedOnce_of_calls num (show startedWorkers [] = [] from rfl) rfl
  rwa [List.append_nil] at log

/-- A failing `kthread_run` stops the workers before it, and leaves its own error
pointer alone. -/
private theorem stoppedOnce_of_failed (failing : Nat) (error : ErrPtr)
    (identity : Nat → UInt32 × String) :
    StoppedOnce (accelStopWorkers failing (((Workers.init identity).startUpTo failing).start
      failing (.err error.code))).calls := by
  have running (index : Nat) (below : index < failing) :
      ((((Workers.init identity).startUpTo failing).start failing
        (.err error.code)).accelerators index).workerThread = .thread := by
    rw [Workers.start]
    simp only [Function.update_of_ne (show index ≠ failing by omega)]
    exact (Workers.init identity).startUpTo_thread below
  obtain ⟨calls, -⟩ := accelStopWorkers_spec _ running
  rw [calls, Workers.start, Workers.startUpTo_calls]
  exact stoppedOnce_of_calls failing rfl rfl

/-- The exits of a probe that has started all its workers. -/
private theorem cortexForgeProbe_of_started {num : Nat} {identity : Nat → UInt32 × String}
    {env : ProbeEnv} (acquired : env.acquire = 0)
    (started : ∀ index < num, env.kthreadRun index = .started) :
    cortexForgeProbe num identity env = (0, (Workers.init identity).startUpTo num) ∨
      ((cortexForgeProbe num identity env).1 ≠ 0 ∧
        (cortexForgeProbe num identity env).2 =
          accelStopWorkers num ((Workers.init identity).startUpTo num)) := by
  simp only [cortexForgeProbe, acquired, ne_eq, not_true_eq_false, ↓reduceIte,
    accelStartWorkers_of_started _ started]
  by_cases region : env.allocChrdevRegion = 0
  · by_cases cdev : env.cdevAdd = 0
    · cases device : env.deviceCreate with
      | none => simp [region, cdev]
      | some error => simp [region, cdev, error.code_ne_zero]
    · simp [region, cdev]
  · simp [region]

/-- The exits of a probe: all workers are started and it succeeds, or it returns an error
and every worker it started has been stopped. -/
private theorem cortexForgeProbe_exits (num : Nat) (identity : Nat → UInt32 × String)
    (env : ProbeEnv) :
    cortexForgeProbe num identity env = (0, (Workers.init identity).startUpTo num) ∨
      ((cortexForgeProbe num identity env).1 ≠ 0 ∧
        StoppedOnce (cortexForgeProbe num identity env).2.calls) := by
  by_cases acquired : env.acquire = 0
  · rcases started_or_failed env.kthreadRun num with
      started | ⟨failing, error, below, first, failed⟩
    · refine (cortexForgeProbe_of_started acquired started).imp_right ?_
      rintro ⟨failed, stopped⟩
      rw [stopped]
      exact ⟨failed, stoppedOnce_of_stop num identity⟩
    · refine Or.inr ?_
      simp only [cortexForgeProbe, acquired, ne_eq, not_true_eq_false, ↓reduceIte,
        accelStartWorkers_of_failed _ below first failed, error.code_ne_zero, not_false_eq_true]
      exact ⟨trivial, stoppedOnce_of_failed failing error identity⟩
  · refine Or.inr ?_
    simp only [cortexForgeProbe, ne_eq, acquired, not_false_eq_true, ↓reduceIte]
    exact ⟨trivial, List.nodup_nil, rfl⟩

theorem accelStartWorkers_ret_eq_zero_iff (kthreadRun : Nat → KthreadRun) (num : Nat)
    (workers : Workers) :
    (accelStartWorkers kthreadRun num workers).1 = 0 ↔
      ∀ index < num, kthreadRun index = .started := by
  constructor
  · intro zero
    rcases started_or_failed kthreadRun num with started | ⟨failing, error, below, first, failed⟩
    · exact started
    · rw [accelStartWorkers_of_failed workers below first failed] at zero
      exact absurd zero error.code_ne_zero
  · intro started
    rw [accelStartWorkers_of_started workers started]

/-- The bookkeeping of the workers. When probe returns an error, every worker it started
has been stopped exactly once, through the pointer to its thread; when it succeeds, all
workers are started and none has been stopped, and the following remove stops each of
them exactly once. `accel_start_workers` returns 0 exactly when all workers were started,
and the error of the first that was not otherwise. -/
theorem worker_bookkeeping (num : Nat) (identity : Nat → UInt32 × String) (env : ProbeEnv) :
    ((cortexForgeProbe num identity env).1 ≠ 0 →
      StoppedOnce (cortexForgeProbe num identity env).2.calls) ∧
    ((cortexForgeProbe num identity env).1 = 0 →
      startedWorkers (cortexForgeProbe num identity env).2.calls = List.range num ∧
      stopCalls (cortexForgeProbe num identity env).2.calls = [] ∧
      StoppedOnce (cortexForgeRemove num (cortexForgeProbe num identity env).2).calls) ∧
    (∀ workers, (accelStartWorkers env.kthreadRun num workers).1 = 0 ↔
      ∀ index < num, env.kthreadRun index = .started) ∧
    (∀ workers failing error, failing < num →
      (∀ index < failing, env.kthreadRun index = .started) →
      env.kthreadRun failing = .failed error →
      (accelStartWorkers env.kthreadRun num workers).1 = error.code) := by
  refine ⟨fun failed => ?_, fun succeeded => ?_, fun workers => ?_, ?_⟩
  · rcases cortexForgeProbe_exits num identity env with success | ⟨-, stopped⟩
    · rw [success] at failed
      exact absurd rfl failed
    · exact stopped
  · rcases cortexForgeProbe_exits num identity env with success | ⟨failed, -⟩
    · rw [success]
      have log := (Workers.init identity).startUpTo_calls num
      refine ⟨?_, ?_, stoppedOnce_of_stop num identity⟩
      · rw [log]
        simp [startedWorkers, Workers.init, List.filterMap_map]
      · rw [log]
        simp [stopCalls, Workers.init, List.filterMap_map]
    · exact absurd succeeded failed
  · exact accelStartWorkers_ret_eq_zero_iff env.kthreadRun num workers
  · intro workers failing error below first failed
    rw [accelStartWorkers_of_failed workers below first failed]

/-- The type and name probe gives the element of an array of `NUM_ACCELERATORS`. -/
def accelIdentityAt (index : Nat) : UInt32 × String :=
  if inRange : index < numAccelerators then accelIdentity ⟨index, inRange⟩ else (0, "")

/-- A successful probe leaves the accelerators of the device that the running driver
starts from. -/
theorem cortexForgeProbe_accelerators {env : ProbeEnv}
    (succeeded : (cortexForgeProbe numAccelerators accelIdentityAt env).1 = 0)
    (index : AccelIndex) :
    (cortexForgeProbe numAccelerators accelIdentityAt env).2.accelerators index =
      probe.accelerators index := by
  rcases cortexForgeProbe_exits numAccelerators accelIdentityAt env with success | ⟨failed, -⟩
  · rw [success, Workers.startUpTo_accelerators, if_pos index.isLt]
    simp only [Workers.init, accelIdentityAt, index.isLt, ↓reduceDIte, probe, taskPoolInit_eq]
    rfl
  · exact absurd succeeded failed

end CortexForge
