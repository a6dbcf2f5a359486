import CortexForge.Foundation.Clock
import CortexForge.Concurrent.Placement
import CortexForge.Concurrent.Solo

/-!
Contract: how long a task holds its accelerator.

The worker waits in a loop that compares the ticks since it started the task with
`msecs_to_jiffies(timeout_ms)` and sleeps in between. `msecs_to_jiffies` rounds up to whole
ticks, but it takes an argument with the sign bit set for an infinite timeout and returns
`MAX_JIFFY_OFFSET`. SUBMIT accepts every value of `timeout_ms`, so a task that asks for
2^31 milliseconds or more is held for as good as ever.

Owns: the readings of the wait loop, the bound a timeout promises, and the exact timeouts
and paces of the clock for which the loop keeps it.
-/

namespace CortexForge.Concurrent

open CortexForge.Foundation

/-- `MAX_JIFFY_OFFSET` of a 64-bit kernel. -/
def maxJiffyOffset : Nat := 0x3ffffffffffffffe

/-- The ticks a timeout lasts, rounded up. -/
def requestedTicks (kernel : Kernel) (timeoutMs : UInt32) : Nat :=
  (timeoutMs.toNat * kernel.hz.toNat + 999) / 1000

/-- `msecs_to_jiffies` rounds up to ticks; a set sign bit means an infinite timeout. -/
def RoundsUp (kernel : Kernel) : Prop :=
  ∀ msecs : UInt32, (kernel.msecsToJiffies msecs).toNat =
    if msecs.toNat < 2 ^ 31 then requestedTicks kernel msecs else maxJiffyOffset

theorem roundsUp_hz1000 : RoundsUp Kernel.hz1000 := by
  intro msecs
  have whole : requestedTicks Kernel.hz1000 msecs = msecs.toNat := by
    show (msecs.toNat * 1000 + 999) / 1000 = msecs.toNat
    omega
  have sign : msecs < 0x80000000 ↔ msecs.toNat < 2 ^ 31 := UInt32.lt_iff_toNat_lt
  show (if msecs < 0x80000000 then msecs.toUInt64 else 0x3ffffffffffffffe).toNat = _
  by_cases small : msecs.toNat < 2 ^ 31
  · rw [if_pos (sign.mpr small), if_pos small, whole, UInt32.toNat_toUInt64]
  · rw [if_neg (mt sign.mp small), if_neg small]
    rfl

/-! ## The wait loop -/

/-- The worker is in the wait loop of its task, or about to enter it. -/
def WorkPhase.waits : WorkPhase → Bool
  | .testTimeout | .readClock _ | .testClock _ _ | .testState _ _ | .sleep _ _
  | .testStop _ _ => true
  | _ => false

/-- The worker neither sees its task cancelled nor is told to stop. -/
def WorkPhase.Calm (dev : Dev) (accel : AccelIndex) (slot : Slot) : WorkPhase → Prop
  | .testState _ _ => (dev.tasks slot).state = .running
  | .testStop _ _ => (dev.accelerators accel).shouldStop = false
  | _ => True

/-- The next step reads `jiffies` for the wait loop. -/
def WorkPhase.readsClock : WorkPhase → Bool
  | .readClock _ | .testClock _ _ => true
  | _ => false

def WorkerPc.readsClock : WorkerPc → Bool
  | .exec _ phase => phase.readsClock
  | _ => false

/-- The worker takes no step outside the wait loop of the task. -/
def InWait (accel : AccelIndex) (slot : Slot) (system : System) (event : Event) : Prop :=
  event.actor = .worker accel →
    ∃ phase, system.workers accel = .exec slot phase ∧ phase.waits = true

/-- Nor does it leave the loop for a cancellation or a request to stop. -/
def WaitsInPeace (accel : AccelIndex) (slot : Slot) (system : System) (event : Event) : Prop :=
  event.actor = .worker accel →
    ∃ phase, system.workers accel = .exec slot phase ∧ phase.waits = true ∧
      phase.Calm system.dev accel slot

theorem WaitsInPeace.inWait {accel : AccelIndex} {slot : Slot} {system : System} {event : Event}
    (inPeace : WaitsInPeace accel slot system event) : InWait accel slot system event := by
  intro own
  obtain ⟨phase, place, waits, -⟩ := inPeace own
  exact ⟨phase, place, waits⟩

/-- The tick in which the worker reads the clock. -/
def clockRead (accel : AccelIndex) (system : System) (event : Event) : Option Nat :=
  if event.actor = .worker accel ∧ (system.workers accel).readsClock then some system.ticks
  else none

/-- The steps the worker has taken. -/
def workSteps (accel : AccelIndex) (events : List Event) : Nat :=
  events.countP fun event => event.actor = .worker accel

/-- What a timeout promises on a clock that advances by one to `most` ticks from test to
test. Whenever a worker reaches the wait of a task with this timeout, its steps in the loop
are bounded, and until it has left the loop it can take another one; and if it is not
disturbed, it leaves the loop at a test that finds at least the requested ticks elapsed, and
fewer than `most` more. -/
def TimeoutBound (kernel : Kernel) (timeoutMs : UInt32) (most : Nat) : Prop :=
  ∀ trace system accel slot, (machine kernel).Run trace system →
    system.workers accel = .exec slot .testTimeout →
    (system.dev.tasks slot).timeoutMs = timeoutMs →
    (∃ bound, ∀ events reads finish,
      (machine kernel).StepsNoting (InWait accel slot) (clockRead accel) system events reads
        finish →
      Clock.Paced most reads → workSteps accel events ≤ bound ∧
        (finish.workers accel ≠ .exec slot .readJiffies →
          ∃ event next, (machine kernel).step (.worker accel false) finish = some (event, next) ∧
            InWait accel slot finish event)) ∧
    ∀ events reads finish,
      (machine kernel).StepsNoting (WaitsInPeace accel slot) (clockRead accel) system events reads
        finish →
      Clock.Paced most reads → finish.workers accel = .exec slot .readJiffies →
      ∃ start tests last, reads = start :: (tests ++ [last]) ∧
        requestedTicks kernel timeoutMs ≤ last - start ∧
        last - start < requestedTicks kernel timeoutMs + most

/-! ## The loop keeps the bound -/

/-- The wait loop after some steps, with its readings of the clock: all tests but the last
found the time not yet up. A worker that was left in peace left the loop at one that found
it up. -/
inductive Waited (limit : UInt64) (calm : Prop) : List Nat → Nat → WorkPhase → Prop
  | begin : Waited limit calm [] 0 .testTimeout
  | timed : Waited limit calm [] 1 (.readClock limit)
  | testClock (start : Nat) (tests : List Nat)
      (early : ∀ test ∈ tests, UInt64.ofNat test - UInt64.ofNat start < limit) :
      Waited limit calm (start :: tests) (4 * tests.length + 2)
        (.testClock limit (UInt64.ofNat start))
  | testState (start : Nat) (tests : List Nat) (last : Nat)
      (early : ∀ test ∈ tests ++ [last], UInt64.ofNat test - UInt64.ofNat start < limit) :
      Waited limit calm (start :: (tests ++ [last])) (4 * tests.length + 3)
        (.testState limit (UInt64.ofNat start))
  | sleep (start : Nat) (tests : List Nat) (last : Nat)
      (early : ∀ test ∈ tests ++ [last], UInt64.ofNat test - UInt64.ofNat start < limit) :
      Waited limit calm (start :: (tests ++ [last])) (4 * tests.length + 4)
        (.sleep limit (UInt64.ofNat start))
  | testStop (start : Nat) (tests : List Nat) (last : Nat)
      (early : ∀ test ∈ tests ++ [last], UInt64.ofNat test - UInt64.ofNat start < limit) :
      Waited limit calm (start :: (tests ++ [last])) (4 * tests.length + 5)
        (.testStop limit (UInt64.ofNat start))
  | left (start : Nat) (tests : List Nat) (last steps : Nat)
      (early : ∀ test ∈ tests, UInt64.ofNat test - UInt64.ofNat start < limit)
      (late : calm → ¬ UInt64.ofNat last - UInt64.ofNat start < limit)
      (soon : steps ≤ 4 * tests.length + 6) :
      Waited limit calm (start :: (tests ++ [last])) steps .readJiffies

section Waited

variable {kernel : Kernel} {limit : UInt64} {calm : Prop} {reads : List Nat} {steps most : Nat}
  {phase : WorkPhase} {accel : AccelIndex} {slot : Slot}

/-- One step of the wait loop. -/
theorem Waited.step {dev : Dev} (waited : Waited limit calm reads steps phase)
    (waits : phase.waits = true) (isCalm : calm → phase.Calm dev accel slot)
    (timed : 0 < (dev.tasks slot).timeoutMs)
    (converted : kernel.msecsToJiffies (dev.tasks slot).timeoutMs = limit) (ticks : Nat) :
    ∃ later, (execStep kernel dev (UInt64.ofNat ticks) accel slot phase).2 = .exec slot later ∧
      Waited limit calm (reads ++ if phase.readsClock then [ticks] else []) (steps + 1) later := by
  cases waited with
  | begin =>
      refine ⟨.readClock limit, ?_, .timed⟩
      simp [execStep, timed, converted]
  | timed => exact ⟨_, rfl, .testClock ticks [] (by simp)⟩
  | testClock start tests early =>
      by_cases now : UInt64.ofNat ticks - UInt64.ofNat start < limit
      · refine ⟨.testState limit (UInt64.ofNat start), by simp [execStep, now], ?_⟩
        refine .testState start tests ticks ?_
        intro test member
        rcases List.mem_append.mp member with before | isNow
        · exact early test before
        · rw [List.mem_singleton.mp isNow]
          exact now
      · exact ⟨.readJiffies, by simp [execStep, now],
          .left start tests ticks _ early (fun _ => now) (by omega)⟩
  | testState start tests last early =>
      have before (test : Nat) (member : test ∈ tests) := early test (by simp [member])
      simp only [WorkPhase.readsClock, Bool.false_eq_true, if_false, List.append_nil]
      by_cases running : (dev.tasks slot).state = .running
      · exact ⟨_, by simp [execStep, running], .sleep start tests last early⟩
      · exact ⟨_, by simp [execStep, running],
          .left start tests last _ before (fun peace => absurd (isCalm peace) running) (by omega)⟩
  | sleep start tests last early =>
      simp only [WorkPhase.readsClock, Bool.false_eq_true, if_false, List.append_nil]
      exact ⟨_, rfl, .testStop start tests last early⟩
  | testStop start tests last early =>
      have before (test : Nat) (member : test ∈ tests) := early test (by simp [member])
      simp only [WorkPhase.readsClock, Bool.false_eq_true, if_false, List.append_nil]
      by_cases stopped : (dev.accelerators accel).shouldStop = true
      · refine ⟨_, by simp [execStep, stopped], .left start tests last _ before ?_ (by omega)⟩
        intro peace
        have quiet : (dev.accelerators accel).shouldStop = false := isCalm peace
        rw [quiet] at stopped
        cases stopped
      · have again : Waited limit calm (start :: (tests ++ [last])) _ _ :=
          .testClock start (tests ++ [last]) early
        rw [List.length_append, List.length_singleton, Nat.mul_add] at again
        exact ⟨_, by simp [execStep, stopped], again⟩
  | left => cases waits

/-- The loop has only one way out. -/
theorem Waited.waits_of_ne (waited : Waited limit calm reads steps phase)
    (notOut : phase ≠ .readJiffies) : phase.waits = true := by
  cases waited with
  | left => exact absurd rfl notOut
  | _ => rfl

/-- On a clock that cannot step over the limit, the loop is left after as many tests as the
limit has ticks. -/
theorem Waited.steps_le (waited : Waited limit calm reads steps phase)
    (paced : Clock.Paced most reads) (fits : limit.toNat + most ≤ 2 ^ 64)
    (positive : 0 < limit.toNat) : steps ≤ 4 * limit.toNat + 6 := by
  -- The tests that found the time not yet up are counted by the limit.
  have counted {start : Nat} {tests : List Nat} (pacedTests : Clock.Paced most (start :: tests))
      (early : ∀ test ∈ tests, UInt64.ofNat test - UInt64.ofNat start < limit) :
      tests.length ≤ limit.toNat := pacedTests.length_le fits positive early
  have inside {start last : Nat} {tests : List Nat}
      (pacedTests : Clock.Paced most (start :: (tests ++ [last])))
      (early : ∀ test ∈ tests ++ [last], UInt64.ofNat test - UInt64.ofNat start < limit) :
      tests.length + 1 ≤ limit.toNat := by
    simpa using counted pacedTests early
  cases waited with
  | begin => omega
  | timed => omega
  | testClock start tests early =>
      have few := counted paced early
      omega
  | testState start tests last early =>
      have few := inside paced early
      omega
  | sleep start tests last early =>
      have few := inside paced early
      omega
  | testStop start tests last early =>
      have few := inside paced early
      omega
  | left start tests last steps early late soon =>
      have few := counted paced.left_of_append early
      omega

/-- A worker that was not disturbed has waited for the limit, and for less than one step of
the clock more. -/
theorem Waited.elapsed (waited : Waited limit True reads steps .readJiffies)
    (paced : Clock.Paced most reads) (fits : limit.toNat + most ≤ 2 ^ 64)
    (positive : 0 < limit.toNat) :
    ∃ start tests last, reads = start :: (tests ++ [last]) ∧ limit.toNat ≤ last - start ∧
      last - start < limit.toNat + most := by
  cases waited with
  | left start tests last steps early late soon =>
      exact ⟨start, tests, last, rfl, paced.expired fits positive early (late trivial)⟩

end Waited

/-- The timeout of a task does not change while its worker executes it. -/
theorem timeoutMs_of_step {kernel : Kernel} {trace : List Event} {system next : System}
    {label : Label} {event : Event} {accel : AccelIndex} {slot : Slot} {phase : WorkPhase}
    (run : (machine kernel).Run trace system) (executes : system.workers accel = .exec slot phase)
    (taken : (machine kernel).step label system = some (event, next)) :
    (next.dev.tasks slot).timeoutMs = (system.dev.tasks slot).timeoutMs := by
  have inv := inv_of_run run
  have after := (inv_of_run (run.extend (.single label taken))).facts slot
  have point := inv.workerClaim accel slot (phase.point accel) (by rw [executes]; rfl)
  have visible : (ledger trace slot).point.Visible := by
    rw [point]
    cases phase <;> simp [WorkPhase.point, Point.Visible, Point.state]
  have enabled := inv.enabled (stepped_of_step taken) slot
  have kept := (enabled.keeps_submission visible.filled.ne_free).2.2
  rw [ledger_snoc] at after
  rw [(after.payload (enabled.keeps_visible visible).filled).timeoutMs, kept,
    ((inv.facts slot).payload visible.filled).timeoutMs]

/-- A worker in the wait loop of a task, after a history in which it had taken `before` steps
when it reached the loop. -/
structure Attends (limit : UInt64) (calm : Prop) (accel : AccelIndex) (slot : Slot)
    (timeoutMs : UInt32) (before : Nat) (history : List Event) (reads : List Nat)
    (system : System) : Prop where
  timeout : (system.dev.tasks slot).timeoutMs = timeoutMs
  waited : ∃ steps phase, system.workers accel = .exec slot phase ∧
    Waited limit calm reads steps phase ∧ workSteps accel history = before + steps

theorem Attends.step {kernel : Kernel} {calm : Prop} {accel : AccelIndex} {slot : Slot}
    {timeoutMs : UInt32} {before : Nat} {history : List Event} {reads : List Nat}
    {system next : System} {label : Label} {event : Event} (positive : 0 < timeoutMs)
    (run : (machine kernel).Run history system)
    (attends : Attends (kernel.msecsToJiffies timeoutMs) calm accel slot timeoutMs before history
      reads system)
    (waits : InWait accel slot system event)
    (isCalm : calm → WaitsInPeace accel slot system event)
    (taken : (machine kernel).step label system = some (event, next)) :
    Attends (kernel.msecsToJiffies timeoutMs) calm accel slot timeoutMs before
      (history ++ [event]) (reads ++ (clockRead accel system event).toList) next := by
  obtain ⟨timeout, steps, phase, executes, waited, counted⟩ := attends
  have stepped := stepped_of_step taken
  refine ⟨(timeoutMs_of_step run executes taken).trans timeout, ?_⟩
  unfold workSteps at counted ⊢
  rw [List.countP_append, counted]
  by_cases own : event.actor = .worker accel
  · obtain ⟨expired, moved⟩ := stepped.workerStep_of_actor own
    obtain ⟨samePhase, isPhase, inLoop⟩ := waits own
    rw [executes] at moved isPhase
    cases isPhase
    have peaceful (peace : calm) : phase.Calm system.dev accel slot := by
      obtain ⟨samePhase, isPhase, -, phaseCalm⟩ := isCalm peace own
      rw [executes] at isPhase
      cases isPhase
      exact phaseCalm
    obtain ⟨later, arrives, waitedOn⟩ := waited.step inLoop peaceful
      (by rw [timeout]; exact positive) (by rw [timeout]) system.ticks
    have place : next.workers accel = .exec slot later := by
      rw [← arrives]
      simp only [workerStep, Option.some.injEq] at moved
      exact (congrArg Prod.snd moved).symm
    have noted : (clockRead accel system event).toList =
        if phase.readsClock then [system.ticks] else [] := by
      unfold clockRead
      rw [executes]
      cases reads : phase.readsClock <;> simp [own, WorkerPc.readsClock, reads]
    rw [noted]
    exact ⟨steps + 1, later, place, waitedOn, by simp [own]; omega⟩
  · refine ⟨steps, phase, ?_, ?_, by simp [own]⟩
    · rw [stepped.workers_of_foreign own, executes]
    · simpa [clockRead, own] using waited

/-- From the point where a worker reaches the wait of its task, its steps and its readings of
the clock are those of the loop. -/
theorem waited_of_steps {kernel : Kernel} (calm : Prop) {accel : AccelIndex} {slot : Slot}
    {trace events : List Event} {reads : List Nat} {system finish : System}
    {Good : System → Event → Prop} (run : (machine kernel).Run trace system)
    (arrived : system.workers accel = .exec slot .testTimeout)
    (positive : 0 < (system.dev.tasks slot).timeoutMs)
    (waits : ∀ state event, Good state event → InWait accel slot state event)
    (isCalm : calm → ∀ state event, Good state event → WaitsInPeace accel slot state event)
    (noted : (machine kernel).StepsNoting Good (clockRead accel) system events reads finish) :
    ∃ phase, finish.workers accel = .exec slot phase ∧
      Waited (kernel.msecsToJiffies (system.dev.tasks slot).timeoutMs) calm reads
        (workSteps accel events) phase := by
  have attends := noted.invariant
    (Attends (kernel.msecsToJiffies (system.dev.tasks slot).timeoutMs) calm accel slot
      (system.dev.tasks slot).timeoutMs (workSteps accel trace)) run
    ⟨rfl, 0, .testTimeout, arrived, .begin, rfl⟩
    (fun _ _ state _ event _ reached attends good taken =>
      attends.step positive reached (waits state event good)
        (fun peace => isCalm peace state event good) taken)
  obtain ⟨-, steps, phase, executes, waited, counted⟩ := attends
  have same : workSteps accel events = steps := by
    unfold workSteps at counted ⊢
    rw [List.countP_append] at counted
    omega
  rw [same]
  exact ⟨phase, executes, waited⟩

/-- The loop keeps the bound where the kernel's conversion is the requested time, unless the
clock can step over the rest of a turn. -/
theorem timeoutBound_of_exact {kernel : Kernel} {timeoutMs : UInt32} {most : Nat}
    (positive : 0 < timeoutMs)
    (exactly : (kernel.msecsToJiffies timeoutMs).toNat = requestedTicks kernel timeoutMs)
    (lasts : 0 < requestedTicks kernel timeoutMs)
    (fits : requestedTicks kernel timeoutMs + most ≤ 2 ^ 64) :
    TimeoutBound kernel timeoutMs most := by
  rintro trace system accel slot run arrived rfl
  rw [← exactly] at lasts fits
  constructor
  · refine ⟨4 * (kernel.msecsToJiffies (system.dev.tasks slot).timeoutMs).toNat + 6, ?_⟩
    intro events reads finish noted paced
    obtain ⟨phase, executes, waited⟩ := waited_of_steps False run arrived positive
      (fun _ _ good => good) (fun never => never.elim) noted
    refine ⟨waited.steps_le paced fits lasts, ?_⟩
    intro stillWaits
    have waits : phase.waits = true :=
      waited.waits_of_ne fun isOut => stillWaits (by rw [executes, isOut])
    refine ⟨_, _, step_worker (by rw [executes]; rfl), ?_⟩
    exact fun _ => ⟨phase, executes, waits⟩
  · intro events reads finish noted paced exits
    obtain ⟨phase, executes, waited⟩ := waited_of_steps True run arrived positive
      (fun _ _ good => good.inWait)
      (fun _ _ _ good => good) noted
    rw [exits] at executes
    cases executes
    rw [← exactly]
    exact waited.elapsed paced fits lasts

/-! ## Reaching the wait -/

/-- A descriptor for accelerator 0 with a timeout. -/
def timedDesc (timeoutMs : UInt32) : TaskDesc := { TaskDesc.zero with timeoutMs := timeoutMs }

/-- A worker about to wait for a task, which has not been cancelled. -/
structure AboutToWait (timeoutMs : UInt32) (accel : AccelIndex) (slot : Slot) (system : System) :
    Prop where
  arrived : system.workers accel = .exec slot .testTimeout
  timeout : (system.dev.tasks slot).timeoutMs = timeoutMs
  running : (system.dev.tasks slot).state = .running
  keepsOn : (system.dev.accelerators accel).shouldStop = false

/-- Every timeout is accepted: a worker can reach the wait of a task that has it. -/
theorem exists_aboutToWait (kernel : Kernel) (timeoutMs : UInt32) :
    ∃ trace system, (machine kernel).Run trace system ∧ AboutToWait timeoutMs 0 0 system := by
  have accepted : validateDesc (timedDesc timeoutMs) = .ok 0 := rfl
  obtain ⟨rest, free⟩ := probe_freeTasks_cons
  obtain ⟨actions, after, reply, submits, queued⟩ := submit_queues kernel 0 accepted free
  have enters : (machine kernel).Steps (initial 0) [⟨.client 0, .tau⟩]
      ((initial 0).moveClient 0 .tau (.submit (timedDesc timeoutMs) 0 .alloc)) :=
    .single (.client 0 (.call (.submit (timedDesc timeoutMs)) true)) (step_client rfl)
  have submitSteps := submits.client_steps 0
    ((initial 0).moveClient 0 .tau (.submit (timedDesc timeoutMs) 0 .alloc)) rfl
    (by simp [System.moveClient]) rfl
  have startSteps := (start_alone kernel 0 queued.running queued.taskQueue).worker_steps
    { (initial 0).moveClient 0 .tau (.submit (timedDesc timeoutMs) 0 .alloc) with
      dev := after
      clients := Function.update
        ((initial 0).moveClient 0 .tau (.submit (timedDesc timeoutMs) 0 .alloc)).clients 0
        (.returned reply) } rfl rfl rfl
  have steps := (enters.trans submitSteps).trans startSteps
  refine ⟨_, _, (run_initial kernel 0).extend steps, ?_⟩
  have keepsOn : (after.accelerators 0).shouldStop = false := by
    rw [queued.shouldStop]
    simp only [probe, taskPoolInit_eq]
    rfl
  constructor
  · simp
  · simpa [applyAll, startActions, Action.apply, Store.apply, timedDesc]
      using queued.carries.timeoutMs
  · simp [applyAll, startActions, Action.apply, Store.apply]
  · simpa [applyAll, startActions, Action.apply, Touch.apply] using keepsOn

/-! ## The loop on a given clock -/

/-- The system with the worker at a point of the wait loop and the clock at a tick. -/
def System.waitingAt (system : System) (accel : AccelIndex) (slot : Slot) (phase : WorkPhase)
    (now : Nat) : System :=
  { system with
    ticks := now
    workers := Function.update system.workers accel (.exec slot phase) }

section Polling

variable (kernel : Kernel) (system : System) (accel : AccelIndex) (slot : Slot)

/-- A step of the undisturbed loop. -/
theorem waitingAt_step (phase later : WorkPhase) (now : Nat) (waits : phase.waits = true)
    (isCalm : phase.Calm system.dev accel slot)
    (moves : execStep kernel system.dev (UInt64.ofNat now) accel slot phase =
      (.tau, .exec slot later)) :
    (machine kernel).StepsNoting (WaitsInPeace accel slot) (clockRead accel)
      (system.waitingAt accel slot phase now) [⟨.worker accel, .tau⟩]
      (if phase.readsClock then [now] else []) (system.waitingAt accel slot later now) := by
  have place : (system.waitingAt accel slot phase now).workers accel = .exec slot phase := by
    simp [System.waitingAt]
  have taken : (machine kernel).step (.worker accel false) (system.waitingAt accel slot phase now) =
      some (⟨.worker accel, .tau⟩, system.waitingAt accel slot later now) := by
    have moved : (machine kernel).step (.worker accel false)
        (system.waitingAt accel slot phase now) = some (⟨.worker accel, .tau⟩,
          (system.waitingAt accel slot phase now).moveWorker accel .tau (.exec slot later)) :=
      step_worker (by rw [place]; exact congrArg some moves)
    simpa [System.waitingAt, System.moveWorker, Action.apply] using moved
  have noted : (clockRead accel (system.waitingAt accel slot phase now)
      ⟨.worker accel, .tau⟩).toList = if phase.readsClock then [now] else [] := by
    unfold clockRead
    rw [place]
    cases reads : phase.readsClock <;> simp [WorkerPc.readsClock, reads, System.waitingAt]
  rw [← noted]
  exact .snoc (.refl _) (fun _ => ⟨phase, place, waits, isCalm⟩) taken

/-- The clock ticks while the worker sleeps. -/
theorem waitingAt_ticks (phase : WorkPhase) (now count : Nat) :
    (machine kernel).StepsNoting (WaitsInPeace accel slot) (clockRead accel)
      (system.waitingAt accel slot phase now) (List.replicate count ⟨.clock, .tau⟩) []
      (system.waitingAt accel slot phase (now + count)) := by
  induction count with
  | zero => exact .refl _
  | succ count inductionHypothesis =>
      have tick : (machine kernel).step .tick
          (system.waitingAt accel slot phase (now + count)) =
          some (⟨.clock, .tau⟩, system.waitingAt accel slot phase (now + (count + 1))) := rfl
      rw [List.replicate_succ']
      exact inductionHypothesis.snoc (by simp [WaitsInPeace]) tick

/-- One round of the loop: the worker tests the clock, finds time left, sleeps, and the
clock moves on. -/
theorem waitingAt_round {limit start : UInt64} {now later : Nat}
    (running : (system.dev.tasks slot).state = .running)
    (keepsOn : (system.dev.accelerators accel).shouldStop = false)
    (early : UInt64.ofNat now - start < limit) (moves : now ≤ later) :
    ∃ events, (machine kernel).StepsNoting (WaitsInPeace accel slot) (clockRead accel)
        (system.waitingAt accel slot (.testClock limit start) now) events [now]
        (system.waitingAt accel slot (.testClock limit start) later) ∧
      0 < workSteps accel events := by
  obtain ⟨count, rfl⟩ := Nat.exists_eq_add_of_le moves
  have tests := waitingAt_step kernel system accel slot (.testClock limit start)
    (.testState limit start) now rfl trivial (by simp [execStep, early])
  have sees := waitingAt_step kernel system accel slot (.testState limit start)
    (.sleep limit start) now rfl running (by simp [execStep, running])
  have sleeps := waitingAt_step kernel system accel slot (.sleep limit start)
    (.testStop limit start) now rfl trivial rfl
  have goesOn := waitingAt_step kernel system accel slot (.testStop limit start)
    (.testClock limit start) now rfl keepsOn (by simp [execStep, keepsOn])
  have ticks := waitingAt_ticks kernel system accel slot (.testClock limit start) now count
  exact ⟨_, (((tests.trans sees).trans sleeps).trans goesOn).trans ticks, by simp [workSteps]⟩

variable {system accel slot} {timeoutMs : UInt32} {most : Nat}

/-- A worker left in peace polls the clock for as long as it shows less than the limit. -/
theorem AboutToWait.polls (about : AboutToWait timeoutMs accel slot system)
    (positive : 0 < timeoutMs) {tests : List Nat} {now : Nat}
    (polled : Clock.Polled (kernel.msecsToJiffies timeoutMs) most system.ticks tests now) :
    ∃ events, (machine kernel).StepsNoting (WaitsInPeace accel slot) (clockRead accel) system
        events (system.ticks :: tests)
        (system.waitingAt accel slot (.testClock (kernel.msecsToJiffies timeoutMs)
          (UInt64.ofNat system.ticks)) now) ∧
      tests.length ≤ workSteps accel events := by
  obtain ⟨arrived, rfl, running, keepsOn⟩ := about
  induction polled with
  | begin =>
      have here : system.waitingAt accel slot .testTimeout system.ticks = system := by
        rw [System.waitingAt, ← arrived, Function.update_eq_self]
      have converts := waitingAt_step kernel system accel slot .testTimeout
        (.readClock (kernel.msecsToJiffies (system.dev.tasks slot).timeoutMs)) system.ticks
        rfl trivial (by simp [execStep, positive])
      have reads := waitingAt_step kernel system accel slot
        (.readClock (kernel.msecsToJiffies (system.dev.tasks slot).timeoutMs)) _ system.ticks
        rfl trivial rfl
      rw [here] at converts
      exact ⟨_, converts.trans reads, Nat.zero_le _⟩
  | @next tests now later _ early pace inductionHypothesis =>
      obtain ⟨before, steps, counted⟩ := inductionHypothesis
      obtain ⟨round, goesRound, works⟩ := waitingAt_round kernel system accel slot running keepsOn
        early (Nat.le_of_lt pace.1)
      refine ⟨_, steps.trans goesRound, ?_⟩
      unfold workSteps at counted works ⊢
      rw [List.length_append, List.length_singleton, List.countP_append]
      omega

/-- It leaves the loop when the clock shows the limit. -/
theorem AboutToWait.expires (about : AboutToWait timeoutMs accel slot system)
    (positive : 0 < timeoutMs) {tests : List Nat} {now : Nat}
    (polled : Clock.Polled (kernel.msecsToJiffies timeoutMs) most system.ticks tests now)
    (late : ¬ UInt64.ofNat now - UInt64.ofNat system.ticks < kernel.msecsToJiffies timeoutMs) :
    ∃ events finish, (machine kernel).StepsNoting (WaitsInPeace accel slot) (clockRead accel)
        system events (system.ticks :: (tests ++ [now])) finish ∧
      finish.workers accel = .exec slot .readJiffies := by
  obtain ⟨events, steps, -⟩ := about.polls kernel positive polled
  have leaves := waitingAt_step kernel system accel slot
    (.testClock (kernel.msecsToJiffies timeoutMs) (UInt64.ofNat system.ticks)) .readJiffies now
    rfl trivial (by simp [execStep, late])
  exact ⟨_, _, steps.trans leaves, by simp [System.waitingAt]⟩

end Polling

/-! ## The exact condition -/

section Exact

variable {kernel : Kernel} {timeoutMs : UInt32} {most : Nat}

/-- A worker in peace exits within the bound, at whatever time past the limit a polling ends. -/
private theorem TimeoutBound.of_polled (bound : TimeoutBound kernel timeoutMs most)
    (positive : 0 < timeoutMs) {trace : List Event} {system : System} {tests : List Nat}
    {elapsed : Nat} (run : (machine kernel).Run trace system)
    (about : AboutToWait timeoutMs 0 0 system)
    (polled : Clock.Polled (kernel.msecsToJiffies timeoutMs) most system.ticks tests
      (system.ticks + elapsed))
    (late : (kernel.msecsToJiffies timeoutMs).toNat ≤ elapsed) (small : elapsed < 2 ^ 64) :
    requestedTicks kernel timeoutMs ≤ elapsed ∧
      elapsed < requestedTicks kernel timeoutMs + most := by
  have expired : ¬ UInt64.ofNat (system.ticks + elapsed) - UInt64.ofNat system.ticks <
      kernel.msecsToJiffies timeoutMs := by
    rw [Clock.elapsed_lt_iff (by omega) (by omega)]
    omega
  obtain ⟨events, finish, steps, exited⟩ := about.expires kernel positive polled expired
  obtain ⟨start, others, last, same, least, greatest⟩ :=
    (bound trace system 0 0 run about.arrived about.timeout).2 events _ finish steps polled.paced
      exited
  obtain ⟨sameStart, sameTests⟩ := List.cons.inj same
  have sameLast := (List.append_inj' sameTests rfl).2
  rw [← sameStart, ← List.singleton_inj.mp sameLast] at least greatest
  omega

/-- A kernel that converts the timeout to anything but the requested time breaks the bound,
and so does a clock that can step over the rest of a turn. -/
theorem exact_of_timeoutBound (positive : 0 < timeoutMs) (moves : 0 < most)
    (lasts : 0 < (kernel.msecsToJiffies timeoutMs).toNat)
    (bound : TimeoutBound kernel timeoutMs most) :
    (kernel.msecsToJiffies timeoutMs).toNat = requestedTicks kernel timeoutMs ∧
      requestedTicks kernel timeoutMs + most ≤ 2 ^ 64 := by
  obtain ⟨trace, system, run, about⟩ := exists_aboutToWait kernel timeoutMs
  have small := (kernel.msecsToJiffies timeoutMs).toNat_lt
  have fits : (kernel.msecsToJiffies timeoutMs).toNat + most ≤ 2 ^ 64 := by
    by_contra skips
    obtain ⟨limit, bounded⟩ := (bound trace system 0 0 run about.arrived about.timeout).1
    obtain ⟨tests, now, length, polled, -⟩ : ∃ tests now, tests.length = limit + 1 ∧
        Clock.Polled (kernel.msecsToJiffies timeoutMs) most system.ticks tests now ∧ _ :=
      Clock.Polled.endless lasts moves (by omega) (limit + 1)
    obtain ⟨events, steps, counted⟩ := about.polls kernel positive polled
    have few := (bounded events _ _ (steps.mono fun _ _ inPeace => inPeace.inWait)
      polled.paced.left_of_append).1
    omega
  -- One polling reads the clock at every tick and exits at the limit.
  obtain ⟨tests, polled⟩ : ∃ tests, Clock.Polled (kernel.msecsToJiffies timeoutMs) most
      system.ticks tests (system.ticks + (kernel.msecsToJiffies timeoutMs).toNat) :=
    Clock.Polled.tick_by_tick moves _ le_rfl
  have exitsAtLimit := bound.of_polled positive run about polled le_rfl small
  -- Another one oversleeps on the last tick before the limit.
  obtain ⟨tests, polled⟩ : ∃ tests, Clock.Polled (kernel.msecsToJiffies timeoutMs) most
      system.ticks tests (system.ticks + ((kernel.msecsToJiffies timeoutMs).toNat - 1)) :=
    Clock.Polled.tick_by_tick moves _ (Nat.sub_le _ _)
  have early : UInt64.ofNat (system.ticks + ((kernel.msecsToJiffies timeoutMs).toNat - 1)) -
      UInt64.ofNat system.ticks < kernel.msecsToJiffies timeoutMs := by
    rw [Clock.elapsed_lt_iff (by omega) (by omega)]
    omega
  have pace : Clock.Pace most (system.ticks + ((kernel.msecsToJiffies timeoutMs).toNat - 1))
      (system.ticks + ((kernel.msecsToJiffies timeoutMs).toNat - 1 + most)) :=
    ⟨by omega, by omega⟩
  have exitsLate := bound.of_polled positive run about (polled.next early pace) (by omega)
    (by omega)
  omega

theorem requestedTicks_pos (kernel : Kernel) (positive : 0 < timeoutMs) :
    0 < requestedTicks kernel timeoutMs := by
  have someMs : 0 < timeoutMs.toNat := UInt32.lt_iff_toNat_lt.mp positive
  have someHz : 0 < kernel.hz.toNat := UInt64.lt_iff_toNat_lt.mp kernel.hzPos
  have product := Nat.mul_pos someMs someHz
  unfold requestedTicks
  omega

/-- The bound is kept exactly if the conversion yields the requested time and the clock
cannot step over the rest of a turn. -/
theorem timeoutBound_iff_exact (positive : 0 < timeoutMs) (moves : 0 < most)
    (lasts : 0 < (kernel.msecsToJiffies timeoutMs).toNat) :
    TimeoutBound kernel timeoutMs most ↔
      (kernel.msecsToJiffies timeoutMs).toNat = requestedTicks kernel timeoutMs ∧
        requestedTicks kernel timeoutMs + most ≤ 2 ^ 64 :=
  ⟨exact_of_timeoutBound positive moves lasts, fun ⟨exactly, fits⟩ =>
    timeoutBound_of_exact positive exactly (requestedTicks_pos kernel positive) fits⟩

end Exact

/-- A timeout is kept exactly if its sign bit is clear, or if the requested time happens to
be the infinite one, and the clock cannot step from below the requested time over the rest
of its turn. -/
theorem timeoutBound_iff (kernel : Kernel) (roundsUp : RoundsUp kernel) (timeoutMs : UInt32)
    (most : Nat) (positive : 0 < timeoutMs) (moves : 0 < most) :
    TimeoutBound kernel timeoutMs most ↔
      (timeoutMs.toNat < 2 ^ 31 ∨ requestedTicks kernel timeoutMs = maxJiffyOffset) ∧
        requestedTicks kernel timeoutMs + most ≤ 2 ^ 64 := by
  have converted := roundsUp timeoutMs
  have lasts := requestedTicks_pos kernel positive
  by_cases signClear : timeoutMs.toNat < 2 ^ 31
  · rw [if_pos signClear] at converted
    rw [timeoutBound_iff_exact positive moves (by rw [converted]; exact lasts), converted]
    simp only [signClear, true_or, true_and]
  · rw [if_neg signClear] at converted
    rw [timeoutBound_iff_exact positive moves (by rw [converted]; decide), converted, eq_comm]
    simp only [signClear, false_or]

/-- At `HZ = 1000` a timeout of 2^31 - 1 ms is kept by a clock with up to 20 ticks between
two tests. -/
theorem timeoutBound_longest : TimeoutBound Kernel.hz1000 0x7fffffff 20 :=
  (timeoutBound_iff Kernel.hz1000 roundsUp_hz1000 0x7fffffff 20 (by decide) (by decide)).mpr
    ⟨Or.inl (by decide), by decide⟩

/-- One millisecond more, and the worker waits for `MAX_JIFFY_OFFSET`, on a clock that is
read at every tick. -/
theorem timeout_taken_as_infinite :
    RoundsUp Kernel.hz1000 ∧ (Kernel.hz1000.msecsToJiffies 0x80000000).toNat = maxJiffyOffset ∧
      ¬ TimeoutBound Kernel.hz1000 0x80000000 1 := by
  have infinite : (Kernel.hz1000.msecsToJiffies 0x80000000).toNat = maxJiffyOffset := by decide
  refine ⟨roundsUp_hz1000, infinite, ?_⟩
  rw [timeoutBound_iff_exact (by decide) (by decide) (by rw [infinite]; decide), infinite]
  decide

end CortexForge.Concurrent
