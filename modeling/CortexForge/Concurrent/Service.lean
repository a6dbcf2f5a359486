import CortexForge.Concurrent.Progress
import CortexForge.Concurrent.Lookup
import CortexForge.Concurrent.Timeout

/-!
Contract: every step of a call brings it closer to its return, and every step of a worker
brings the tasks on its queue closer to their turn.

A call makes a bounded number of steps, because the scans are bounded by the size of the pool.
A worker takes the tasks of its queue in order, and between two tasks it never goes back to
sleep while the queue is not empty. Outside the execution waits, whose length the timeouts
decide (`Concurrent.Timeout`), it therefore needs 39 steps for each task ahead.

The steps are those of the driver with its locks, as in `Concurrent.Progress`.

Owns: the steps left of a call and of a queued task.

Does not own: whether a thread can take its next step (`Concurrent.Liveness`).
-/

namespace CortexForge.Concurrent

open CortexForge.Foundation

/-! ## Calls -/

def SubmitPhase.stepsLeft : SubmitPhase → Nat
  | .alloc => 49
  | .fill _ => 21
  | .check _ => 14
  | .writePending _ => 13
  | .readJiffies _ => 12
  | .writeSubmitJiffies _ _ => 11
  | .enqueue _ => 10
  | .wakeUp _ => 3
  | .readId _ => 2
  | .copyOut _ => 1
  | .rollback _ _ => 8

/-- The most steps a thread takes until its call has returned. -/
def ClientPc.stepsLeft : ClientPc → Nat
  | .submit _ _ phase => phase.stepsLeft
  | .query taskId phase => (ClientPc.query taskId phase).remaining
  | .cancel taskId phase => (ClientPc.cancel taskId phase).remaining
  | .accelInfo _ _ => 11
  | .copyInfo _ => 1
  | .idle | .returned _ => 0

/-- The thread is inside a call. -/
def ClientPc.InCall : ClientPc → Prop
  | .idle | .returned _ => False
  | _ => True

theorem ClientPc.stepsLeft_le (pc : ClientPc) : pc.stepsLeft ≤ 522 := by
  have pool : maxTasks = 256 := rfl
  cases pc with
  | submit desc accel phase => cases phase <;> simp [stepsLeft, SubmitPhase.stepsLeft]
  | query taskId phase => cases phase <;> simp only [stepsLeft, remaining] <;> omega
  | cancel taskId phase => cases phase <;> simp only [stepsLeft, remaining] <;> omega
  | _ => simp [stepsLeft]

theorem submitStep_stepsLeft (dev : Dev) (now : UInt64) (choice : Bool) (desc : TaskDesc)
    (accel : AccelIndex) (phase : SubmitPhase) :
    (submitStep dev now choice desc accel phase).2.stepsLeft < phase.stepsLeft := by
  cases phase <;> simp only [submitStep] <;> (try split) <;>
    simp [ClientPc.stepsLeft, SubmitPhase.stepsLeft]

/-- Every step inside a call is one of those left. -/
theorem clientStep_stepsLeft {kernel : Kernel} {dev : Dev} {now : UInt64} {input : ClientInput}
    {pc next : ClientPc} {action : Action} (inCall : pc.InCall)
    (taken : clientStep kernel dev now input pc = some (action, next)) :
    next.stepsLeft < pc.stepsLeft ∧ (next.InCall ∨ ∃ reply, next = .returned reply) := by
  cases clientTaken_of_step taken with
  | enter call copied _ resting =>
      rcases resting with rfl | ⟨reply, rfl⟩
      · exact inCall.elim
      · exact inCall.elim
  | submit choice desc accel phase =>
      refine ⟨submitStep_stepsLeft dev now choice desc accel phase, ?_⟩
      rcases submitStep_next dev now choice desc accel phase with
        ⟨later, stays⟩ | ⟨ret, reply, returns⟩
      · exact Or.inl (by rw [stays]; trivial)
      · exact Or.inr ⟨_, returns⟩
  | query choice taskId phase =>
      have looks : (ClientPc.query taskId phase).lookup ≠ none := by simp [ClientPc.lookup]
      obtain ⟨_, _, moved, lowered⟩ := lookup_progress kernel dev now choice looks
      cases moved
      rcases queryStep_next kernel dev choice taskId phase with
        ⟨later, stays⟩ | ⟨ret, answer, returns⟩
      · rw [stays] at lowered ⊢
        exact ⟨lowered, Or.inl trivial⟩
      · rw [returns] at lowered ⊢
        exact ⟨lowered, Or.inr ⟨_, rfl⟩⟩
  | cancel choice taskId phase =>
      have looks : (ClientPc.cancel taskId phase).lookup ≠ none := by simp [ClientPc.lookup]
      obtain ⟨_, _, moved, lowered⟩ := lookup_progress kernel dev now choice looks
      simp only [clientStep, Option.some.injEq] at moved
      rw [moved]
      rcases cancelStep_next dev taskId phase with ⟨later, stays⟩ | ⟨ret, returns⟩
      · rw [moved] at stays
        cases stays
        exact ⟨lowered, Or.inl trivial⟩
      · rw [moved] at returns
        cases returns
        exact ⟨lowered, Or.inr ⟨_, rfl⟩⟩
  | accelInfo choice info accel => exact ⟨by simp [ClientPc.stepsLeft], Or.inl trivial⟩
  | copyInfo choice info => exact ⟨by simp [ClientPc.stepsLeft], Or.inr ⟨_, rfl⟩⟩

/-- A thread inside a call can take its next step, whatever the environment decides. -/
theorem clientStep_isSome (kernel : Kernel) (dev : Dev) (now : UInt64) (choice : Bool)
    {pc : ClientPc} (inCall : pc.InCall) :
    (clientStep kernel dev now (.advance choice) pc).isSome := by
  cases pc with
  | idle => exact inCall.elim
  | returned reply => exact inCall.elim
  | _ => rfl

instance : (pc : ClientPc) → Decidable pc.InCall
  | .idle | .returned _ => isFalse id
  | .submit _ _ _ | .query _ _ | .cancel _ _ | .accelInfo _ _ | .copyInfo _ => isTrue trivial

/-! ## Queued tasks -/

/-- The steps a worker still takes for its task outside the execution wait. -/
def WorkPhase.busyLeft : WorkPhase → Nat
  | .writeRunning => 19
  | .raiseLoad => 18
  | .testTimeout | .readClock _ | .testClock _ _ | .testState _ _ | .sleep _ _ | .testStop _ _
  | .sleepShort => 16
  | .readJiffies => 15
  | .writeCompleteJiffies _ => 14
  | .writeComplete => 13
  | .writeError => 12
  | .lowerLoad => 11
  | .completeAll => 9
  | .unlink => 8

/-- The steps a worker still takes outside execution waits until it dequeues a task, if its
queue is not empty. -/
def WorkerPc.untilDequeue : WorkerPc → Nat
  | .exec _ phase => phase.busyLeft + 20
  | .testRunning => 22
  | .schedule => 21
  | .asleep | .loop => 20
  | .prepare => 19
  | .testQueue => 18
  | .finishWait => 17
  | .recheck => 16
  | .dequeue => 15
  | .exited => 0

theorem WorkerPc.untilDequeue_le (pc : WorkerPc) : pc.untilDequeue ≤ 39 := by
  cases pc with
  | exec slot phase => cases phase <;> simp [untilDequeue, WorkPhase.busyLeft]
  | _ => simp [untilDequeue]

/-- The worker is in the execution wait of a task. -/
def WorkerPc.inWait : WorkerPc → Bool
  | .exec _ phase => phase.waits
  | _ => false

/-- What a step costs a worker outside execution waits. -/
def busyCost (accel : AccelIndex) (system : System) (event : Event) : Nat :=
  if event.actor = .worker accel ∧ (system.workers accel).inWait = false then
    (system.workers accel).cost
  else 0

/-- The slot is queued behind others on an accelerator that runs, or being executed; its worker
has at most `left` steps outside execution waits to take until it has unlinked it. -/
inductive Awaits (accel : AccelIndex) (slot : Slot) : Nat → System → Prop
  | queued (system : System) (ahead behind : List Slot)
      (running : (system.dev.accelerators accel).running = true)
      (queue : (system.dev.accelerators accel).taskQueue = ahead ++ slot :: behind) :
      Awaits accel slot ((system.workers accel).untilDequeue + 39 * ahead.length + 19) system
  | executing (system : System) (phase : WorkPhase)
      (running : (system.dev.accelerators accel).running = true)
      (place : system.workers accel = .exec slot phase) :
      Awaits accel slot phase.busyLeft system

theorem execStep_busyLeft (kernel : Kernel) (dev : Dev) (now : UInt64) (accel : AccelIndex)
    (slot : Slot) (phase : WorkPhase) :
    (∃ later, (execStep kernel dev now accel slot phase).2 = .exec slot later ∧
        later.busyLeft ≤ phase.busyLeft ∧
        (phase.waits = false →
          later.busyLeft + (WorkerPc.exec slot phase).cost ≤ phase.busyLeft)) ∨
      (phase = .unlink ∧
        execStep kernel dev now accel slot phase = (.unlink accel slot, .loop)) := by
  cases phase <;> simp only [execStep] <;> (try split) <;>
    simp [WorkPhase.busyLeft, WorkPhase.waits, WorkerPc.cost]

section Serve

variable {kernel : Kernel} {system next : System} {event : Event} {accel : AccelIndex}
  {slot : Slot}

theorem busyCost_own (system : System) (own : event.actor = .worker accel) :
    busyCost accel system event =
      if (system.workers accel).inWait then 0 else (system.workers accel).cost := by
  unfold busyCost
  cases (system.workers accel).inWait <;> simp [own]

/-- The cost is paid outside the wait. -/
theorem busyCost_le {phase later : WorkPhase} (most : later.busyLeft ≤ phase.busyLeft)
    (lowered : phase.waits = false →
      later.busyLeft + (WorkerPc.exec slot phase).cost ≤ phase.busyLeft) :
    later.busyLeft + (if (WorkerPc.exec slot phase).inWait then 0
      else (WorkerPc.exec slot phase).cost) ≤ phase.busyLeft := by
  by_cases waits : (WorkerPc.exec slot phase).inWait = true
  · rw [if_pos waits]
    exact most
  · rw [if_neg waits]
    exact lowered (by simpa [WorkerPc.inWait] using waits)

theorem busyCost_foreign (foreign : event.actor ≠ .worker accel) :
    busyCost accel system event = 0 := by
  simp [busyCost, foreign]

/-- Where nothing is dequeued, a queue grows at its end. -/
theorem Stepped.queue_grows (stepped : Stepped kernel system event next)
    (notDequeue : ∀ other, event ≠ ⟨.worker accel, .dequeue accel other⟩)
    {ahead behind : List Slot}
    (queue : (system.dev.accelerators accel).taskQueue = ahead ++ slot :: behind) :
    ∃ more, (next.dev.accelerators accel).taskQueue = ahead ++ slot :: more := by
  have moved := stepped.queue accel
  have kept : event.dequeuedBy accel = none := by
    obtain ⟨actor, action⟩ := event
    cases action with
    | dequeue target other =>
        obtain ⟨rfl, -⟩ := stepped.dequeue
        by_cases same : target = accel
        · subst same
          exact absurd rfl (notDequeue other)
        · simp [Event.dequeuedBy, same]
    | _ => cases actor <;> rfl
  rw [kept, queue] at moved
  exact ⟨behind ++ (event.enqueuesOn accel).toList, by simpa using moved⟩

/-- A step of the worker that executes the slot. -/
theorem Awaits.step_executing (stepped : Stepped kernel system event next)
    (own : event.actor = .worker accel) {phase : WorkPhase}
    (running : (next.dev.accelerators accel).running = true)
    (place : system.workers accel = .exec slot phase)
    (notUnlink : event ≠ ⟨.worker accel, .unlink accel slot⟩) :
    ∃ after, Awaits accel slot after next ∧
      after + busyCost accel system event ≤ phase.busyLeft := by
  obtain ⟨expired, moved⟩ := stepped.workerStep_of_actor own
  simp only [place, workerStep, Option.some.injEq] at moved
  rcases execStep_busyLeft kernel system.dev system.jiffies accel slot phase with
    ⟨later, stays, lowered⟩ | ⟨-, unlinks⟩
  · rw [moved] at stays
    refine ⟨later.busyLeft, .executing next later running stays, ?_⟩
    rw [busyCost_own system own, place]
    exact busyCost_le lowered.1 lowered.2
  · rw [moved, Prod.mk.injEq] at unlinks
    exact absurd (by rw [← own, ← unlinks.1]) notUnlink

/-- A step of the worker that leaves the queue alone. -/
theorem Awaits.step_between (stepped : Stepped kernel system event next)
    (running : (next.dev.accelerators accel).running = true) {ahead behind : List Slot}
    (queue : (system.dev.accelerators accel).taskQueue = ahead ++ slot :: behind)
    (notDequeue : ∀ other, event ≠ ⟨.worker accel, .dequeue accel other⟩)
    (lowered : (next.workers accel).untilDequeue + busyCost accel system event ≤
      (system.workers accel).untilDequeue) :
    ∃ after, Awaits accel slot after next ∧
      after + busyCost accel system event ≤
        (system.workers accel).untilDequeue + 39 * ahead.length + 19 := by
  obtain ⟨more, queueAfter⟩ := stepped.queue_grows notDequeue queue
  exact ⟨_, .queued next ahead more running queueAfter, by omega⟩

/-- A step of the worker while the slot is queued. -/
theorem Awaits.step_queued (stepped : Stepped kernel system event next)
    (own : event.actor = .worker accel) {ahead behind : List Slot}
    (running : (system.dev.accelerators accel).running = true)
    (runningAfter : (next.dev.accelerators accel).running = true)
    (queue : (system.dev.accelerators accel).taskQueue = ahead ++ slot :: behind) :
    ∃ after, Awaits accel slot after next ∧
      after + busyCost accel system event ≤
        (system.workers accel).untilDequeue + 39 * ahead.length + 19 := by
  obtain ⟨expired, moved⟩ := stepped.workerStep_of_actor own
  have between := Awaits.step_between stepped runningAfter queue
  have counted := busyCost_own system own
  obtain ⟨actor, action⟩ := event
  cases own
  generalize before : system.workers accel = pc, later : next.workers accel = pc' at moved
  rw [before] at between counted
  rw [later] at between
  cases workerTaken_of_step moved with
  | leave cleared => simp [running] at cleared
  | seesEmpty empty => simp [queue] at empty
  | seesCleared cleared => simp [running] at cleared
  | quits cleared => simp [running] at cleared
  | findsNone empty => simp [queue] at empty
  | dequeue head rest first =>
      have shorter : (next.dev.accelerators accel).taskQueue = rest := by
        rw [stepped.dev, Action.apply_taskQueue]
        simp [first]
      rw [counted]
      cases ahead with
      | nil =>
          rw [queue, List.nil_append, List.cons.injEq] at first
          obtain ⟨rfl, -⟩ := first
          exact ⟨_, .executing next .writeRunning runningAfter later, by
            simp [WorkPhase.busyLeft, WorkerPc.untilDequeue, WorkerPc.inWait, WorkerPc.cost]⟩
      | cons other ahead =>
          rw [queue, List.cons_append, List.cons.injEq] at first
          rw [← first.2] at shorter
          refine ⟨_, .queued next ahead behind runningAfter shorter, ?_⟩
          rw [later]
          simp only [WorkerPc.untilDequeue, WorkPhase.busyLeft, WorkerPc.inWait, WorkerPc.cost,
            Bool.false_eq_true, ↓reduceIte, List.length_cons]
          omega
  | exec other phase =>
      refine between (fun target same => ?_) ?_
      · cases phase <;> simp [execStep] at same <;> split at same <;> simp at same
      · rw [counted]
        rcases execStep_busyLeft kernel system.dev system.jiffies accel other phase with
          ⟨after, stays, most, lowered⟩ | ⟨rfl, unlinks⟩
        · rw [stays]
          have paid := busyCost_le most lowered
          simp only [WorkerPc.untilDequeue]
          omega
        · rw [unlinks]
          simp [WorkerPc.untilDequeue, WorkPhase.busyLeft, WorkerPc.inWait, WorkPhase.waits,
            WorkerPc.cost]
  | _ =>
      refine between (by simp) ?_
      rw [counted]
      simp [WorkerPc.untilDequeue, WorkerPc.inWait, WorkerPc.cost]

/-- Every step leaves the slot on its way, and a step of its worker outside execution waits
brings it closer. -/
theorem Awaits.step {left : Nat} (awaits : Awaits accel slot left system)
    (stepped : Stepped kernel system event next)
    (keepsRunning : event.action ≠ .touch accel .clearRunning)
    (notUnlink : event ≠ ⟨.worker accel, .unlink accel slot⟩) :
    ∃ after, Awaits accel slot after next ∧
      after + busyCost accel system event ≤ left := by
  have runningAfter (running : (system.dev.accelerators accel).running = true) :
      (next.dev.accelerators accel).running = true := by
    rw [stepped.dev, Action.apply_running, if_neg keepsRunning, running]
  by_cases own : event.actor = .worker accel
  · cases awaits with
    | queued _ ahead behind running queue =>
        exact Awaits.step_queued stepped own running (runningAfter running) queue
    | executing _ phase running place =>
        exact Awaits.step_executing stepped own (runningAfter running) place notUnlink
  · have still := stepped.workers_of_foreign own
    cases awaits with
    | queued _ ahead behind running queue =>
        refine Awaits.step_between stepped (runningAfter running) queue ?_ ?_
        · rintro other rfl
          exact own rfl
        · rw [still, busyCost_foreign own]
          exact le_rfl
    | executing _ phase running place =>
        refine ⟨_, .executing next phase (runningAfter running) (still.trans place), ?_⟩
        rw [busyCost_foreign own]
        exact le_rfl

/-- As long as the slot is on its way, the step the worker is at is among those it waits
for. -/
theorem Awaits.running {left : Nat} (awaits : Awaits accel slot left system) :
    (system.dev.accelerators accel).running = true ∧ (system.workers accel).cost ≤ left := by
  cases awaits with
  | queued _ ahead behind running queue =>
      refine ⟨running, ?_⟩
      have atMost : (system.workers accel).cost ≤ 15 := by
        cases system.workers accel with
        | exec other phase => cases phase <;> simp [WorkerPc.cost]
        | _ => simp [WorkerPc.cost]
      omega
  | executing _ phase running place =>
      rw [place]
      exact ⟨running, by cases phase <;> simp [WorkPhase.busyLeft, WorkerPc.cost]⟩

end Serve

end CortexForge.Concurrent
