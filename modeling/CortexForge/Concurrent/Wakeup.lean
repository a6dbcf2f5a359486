import CortexForge.Concurrent.Stopping

/-!
Contract: no wake-up of a worker is lost.

A worker registers on its wait queue before it looks at the task queue and at the
`running` flag, one after the other and without a lock, and goes to sleep only if no
wake-up has reached it since it registered. A submitter and the stopping thread change
what it looks at first and call `wake_up` afterwards. So a change that the worker has
missed is followed by a wake-up that it cannot miss.

Owns: what a registered worker knows at each of its steps, and the absence of lost
wake-ups over whole runs.
-/

namespace CortexForge.Concurrent

open CortexForge.Foundation

/-- The worker sleeps, and no wake-up has reached it. -/
def Asleep (system : System) (accel : AccelIndex) : Prop :=
  system.workers accel = .asleep ∧ (system.dev.accelerators accel).workWait.woken = false

/-- A submitter has queued its task and has still to wake the worker. -/
def SubmitterWakes (system : System) (accel : AccelIndex) : Prop :=
  ∃ thread desc slot, system.clients thread = .submit desc accel (.wakeUp slot)

/-- The stopping thread has cleared the flag and has still to wake the worker. -/
def StopperWakes (system : System) (accel : AccelIndex) : Prop :=
  system.stopper = .wakeUp accel

/-! ## What a registered worker knows -/

/-- The worker is registered on its wait queue. -/
def WorkerPc.Enlisted (pc : WorkerPc) : Prop :=
  pc = .testQueue ∨ pc = .testRunning ∨ pc = .schedule ∨ pc = .asleep

/-- The worker has found its queue empty since it registered. -/
def WorkerPc.SawEmpty (pc : WorkerPc) : Prop :=
  pc = .testRunning ∨ pc = .schedule ∨ pc = .asleep

/-- The worker has found its flag set since it registered. -/
def WorkerPc.SawRunning (pc : WorkerPc) : Prop := pc = .schedule ∨ pc = .asleep

theorem WorkerPc.SawEmpty.enlisted {pc : WorkerPc} (saw : pc.SawEmpty) : pc.Enlisted :=
  Or.inr saw

theorem WorkerPc.SawRunning.enlisted {pc : WorkerPc} (saw : pc.SawRunning) : pc.Enlisted :=
  Or.inr (Or.inr saw)

/-- What the worker has seen still holds, or a wake-up has arrived, or one is on its
way. -/
structure Watchful (system : System) (accel : AccelIndex) : Prop where
  registered : (system.workers accel).Enlisted →
    (system.dev.accelerators accel).workWait.registered = true
  queue : (system.workers accel).SawEmpty →
    (system.dev.accelerators accel).workWait.woken = false →
    (system.dev.accelerators accel).taskQueue = [] ∨ SubmitterWakes system accel
  running : (system.workers accel).SawRunning →
    (system.dev.accelerators accel).workWait.woken = false →
    (system.dev.accelerators accel).running = true ∨ StopperWakes system accel

theorem Watchful.initial (ticks : Nat) (accel : AccelIndex) : Watchful (initial ticks) accel where
  registered := by rintro (atLoop | atLoop | atLoop | atLoop) <;> cases atLoop
  queue := by rintro (atLoop | atLoop | atLoop) <;> cases atLoop
  running := by rintro (atLoop | atLoop) <;> cases atLoop

/-! ## The worker's own steps -/

section Worker

variable {kernel : Kernel} {dev : Dev} {now : UInt64} {expired : Bool} {accel : AccelIndex}
  {pc next : WorkerPc} {action : Action}

/-- A worker is enlisted by registering, and stays so without touching anything. -/
theorem enlisted_of_workerStep
    (taken : workerStep kernel dev now expired accel pc = some (action, next))
    (enlisted : next.Enlisted) :
    (next = .testQueue ∧ action = .touch accel .prepareToWait) ∨
      (pc.Enlisted ∧ action = .tau ∧
        (next.SawEmpty → pc.SawEmpty ∨ (dev.accelerators accel).taskQueue = []) ∧
        (next.SawRunning → pc.SawRunning ∨ (dev.accelerators accel).running = true)) := by
  cases workerTaken_of_step taken with
  | register => exact Or.inl ⟨rfl, rfl⟩
  | seesEmpty empty =>
      refine Or.inr ⟨Or.inl rfl, rfl, fun _ => Or.inr empty, ?_⟩
      rintro (atTest | atTest) <;> cases atTest
  | seesRunning running =>
      exact Or.inr ⟨Or.inr (Or.inl rfl), rfl, fun _ => Or.inl (Or.inl rfl), fun _ => Or.inr running⟩
  | fallsAsleep notWoken =>
      exact Or.inr ⟨Or.inr (Or.inr (Or.inl rfl)), rfl, fun _ => Or.inl (Or.inr (Or.inl rfl)),
        fun _ => Or.inl (Or.inl rfl)⟩
  | exec slot phase =>
      rcases execStep_next kernel dev now accel slot phase with ⟨later, stays⟩ | unlinks
      · simp [stays, WorkerPc.Enlisted] at enlisted
      · simp [unlinks, WorkerPc.Enlisted] at enlisted
  | _ => simp [WorkerPc.Enlisted] at enlisted

end Worker

/-! ## One step -/

section Step

variable {kernel : Kernel} {system next : System} {event : Event} {accel : AccelIndex}

/-- A submitter about to wake the worker stays there until it wakes it. -/
theorem Stepped.submitterWakes (stepped : Stepped kernel system event next)
    (wakes : SubmitterWakes system accel) :
    SubmitterWakes next accel ∨ event.action = .touch accel .wakeUp := by
  obtain ⟨thread, desc, slot, waking⟩ := wakes
  by_cases own : event.actor = .client thread
  · obtain ⟨input, taken⟩ := stepped.clientStep_of_actor own
    rw [waking] at taken
    cases input with
    | call call copied => cases taken
    | advance choice =>
        simp only [clientStep, submitStep, Option.some.injEq, Prod.mk.injEq] at taken
        exact Or.inr taken.1.symm
  · exact Or.inl ⟨thread, desc, slot, by rw [stepped.clients_of_foreign own, waking]⟩

/-- Whoever queues a task is about to wake the worker. -/
theorem Stepped.submitterWakes_of_enqueue (stepped : Stepped kernel system event next)
    {slot : Slot} (isEnqueue : event.action = .enqueue accel slot) :
    SubmitterWakes next accel := by
  obtain ⟨actor, action⟩ := event
  cases isEnqueue
  obtain ⟨thread, rfl⟩ := stepped.enqueue
  obtain ⟨input, taken⟩ := stepped.clientStep_of_actor rfl
  have move := clientMove_of_step thread taken
  generalize before : system.clients thread = pc, after : next.clients thread = pc' at move
  cases move with
  | quiet noSlot _ => cases noSlot
  | enqueue desc _ _ => exact ⟨thread, desc, slot, after⟩

/-- The same for the stopping thread. -/
theorem Stepped.stopperWakes (stepped : Stepped kernel system event next)
    (wakes : StopperWakes system accel) :
    StopperWakes next accel ∨ event.action = .touch accel .wakeUp := by
  by_cases own : event.actor = .stopper
  · have taken := stepped.stopperStep_of_actor own
    rw [show system.stopper = .wakeUp accel from wakes] at taken
    simp only [stopperStep, Option.some.injEq, Prod.mk.injEq] at taken
    exact Or.inr taken.1.symm
  · exact Or.inl ((stepped.stopper_of_foreign own).trans wakes)

theorem Stepped.stopperWakes_of_clearRunning (stepped : Stepped kernel system event next)
    (clears : event.action = .touch accel .clearRunning) : StopperWakes next accel := by
  have own : event.actor = .stopper := stepped.madeBy clears
  have move := stopperMove_of_step (stepped.stopperStep_of_actor own)
  rw [clears] at move
  unfold StopperWakes
  generalize system.stopper = before, next.stopper = after at move
  cases move
  rfl

/-- A step of another thread leaves the worker registered, and if the worker is not
woken after it, it was not woken before and the step is no wake-up. -/
theorem Stepped.workWait_of_foreign (stepped : Stepped kernel system event next)
    (foreign : event.actor ≠ .worker accel)
    (registered : (system.dev.accelerators accel).workWait.registered = true) :
    (next.dev.accelerators accel).workWait.registered = true ∧
      ((next.dev.accelerators accel).workWait.woken = false →
        (system.dev.accelerators accel).workWait.woken = false ∧
          event.action ≠ .touch accel .wakeUp) := by
  have untouched (update : Touch) (owned : update.MadeBy accel event.actor →
      event.actor = .worker accel) : event.action ≠ .touch accel update :=
    fun touches => foreign (owned (stepped.madeBy touches))
  rw [stepped.dev, Action.apply_workWait, if_neg (untouched .prepareToWait id),
    if_neg (untouched .finishWait id)]
  split
  · simp [WaitQueue.wakeUp, registered]
  next quiet =>
    rw [not_or] at quiet
    exact ⟨registered, fun woken => ⟨woken, quiet.1⟩⟩

/-- A step of the worker itself: what it has just seen holds when it sees it. -/
private theorem Watchful.own_step (watchful : Watchful system accel)
    (stepped : Stepped kernel system event next) (own : event.actor = .worker accel) :
    Watchful next accel := by
  obtain ⟨expired, taken⟩ := stepped.workerStep_of_actor own
  have moved (enlisted : (next.workers accel).Enlisted) := enlisted_of_workerStep taken enlisted
  -- Once it has registered, the worker only looks: the device stays as it is.
  have looks (isTau : event.action = .tau) : next.dev = system.dev := by
    rw [stepped.dev, isTau]
    rfl
  have submitters (wakes : SubmitterWakes system accel) : SubmitterWakes next accel := by
    obtain ⟨thread, desc, slot, waking⟩ := wakes
    exact ⟨thread, desc, slot, by
      rw [stepped.clients_of_foreign (by rw [own]; simp), waking]⟩
  have stopper : next.stopper = system.stopper := stepped.stopper_of_foreign (by rw [own]; simp)
  constructor
  · intro enlisted
    rcases moved enlisted with ⟨-, registers⟩ | ⟨before, isTau, -⟩
    · rw [stepped.dev, Action.apply_workWait, if_pos registers]
    · rw [looks isTau]
      exact watchful.registered before
  · intro saw woken
    rcases moved saw.enlisted with ⟨atTest, -⟩ | ⟨-, isTau, seen, -⟩
    · rw [atTest] at saw
      simp [WorkerPc.SawEmpty] at saw
    · rw [looks isTau] at woken ⊢
      rcases seen saw with before | empty
      · exact (watchful.queue before woken).imp_right submitters
      · exact Or.inl empty
  · intro saw woken
    rcases moved saw.enlisted with ⟨atTest, -⟩ | ⟨-, isTau, -, seen⟩
    · rw [atTest] at saw
      simp [WorkerPc.SawRunning] at saw
    · rw [looks isTau] at woken ⊢
      rcases seen saw with before | runs
      · exact (watchful.running before woken).imp_right stopper.trans
      · exact Or.inl runs

/-- A step of another thread: whoever changes what the worker has seen is about to
wake it. -/
private theorem Watchful.foreign_step (watchful : Watchful system accel)
    (stepped : Stepped kernel system event next) (foreign : event.actor ≠ .worker accel) :
    Watchful next accel := by
  have still := stepped.workers_of_foreign foreign
  have wait (enlisted : (system.workers accel).Enlisted) :=
    stepped.workWait_of_foreign foreign (watchful.registered enlisted)
  constructor
  · intro enlisted
    rw [still] at enlisted
    exact (wait enlisted).1
  · intro saw woken
    rw [still] at saw
    obtain ⟨notWoken, noWakeUp⟩ := (wait saw.enlisted).2 woken
    rcases watchful.queue saw notWoken with empty | wakes
    · by_cases stillEmpty : (next.dev.accelerators accel).taskQueue = []
      · exact Or.inl stillEmpty
      · obtain ⟨slot, queued⟩ := List.exists_mem_of_ne_nil _ stillEmpty
        rcases stepped.mem_queue queued with before | isEnqueue
        · rw [empty] at before
          cases before
        · exact Or.inr (stepped.submitterWakes_of_enqueue isEnqueue)
    · exact Or.inr ((stepped.submitterWakes wakes).resolve_right noWakeUp)
  · intro saw woken
    rw [still] at saw
    obtain ⟨notWoken, noWakeUp⟩ := (wait saw.enlisted).2 woken
    rcases watchful.running saw notWoken with runs | wakes
    · rw [stepped.dev, Action.apply_running]
      split
      next clears => exact Or.inr (stepped.stopperWakes_of_clearRunning clears)
      next => exact Or.inl runs
    · exact Or.inr ((stepped.stopperWakes wakes).resolve_right noWakeUp)

theorem Watchful.step (watchful : Watchful system accel)
    (stepped : Stepped kernel system event next) : Watchful next accel := by
  by_cases own : event.actor = .worker accel
  · exact watchful.own_step stepped own
  · exact watchful.foreign_step stepped own

end Step

theorem watchful_of_run {kernel : Kernel} {trace : List Event} {system : System}
    (run : (machine kernel).Run trace system) (accel : AccelIndex) : Watchful system accel := by
  refine run.invariant (fun _ state => Watchful state accel) ?_ ?_
  · rintro _ ⟨ticks, rfl⟩
    exact Watchful.initial ticks accel
  · intro trace system label event next _ watchful taken
    exact watchful.step (stepped_of_step taken)

/-! ## No lost wake-up -/

/-- In no reachable state is a worker asleep while its queue is not empty or its flag
is cleared, unless a submitter or the stopping thread is about to wake it. -/
theorem no_lost_wakeup (kernel : Kernel) (trace : List Event) (system : System)
    (run : (machine kernel).Run trace system) (accel : AccelIndex)
    (asleep : Asleep system accel)
    (due : (system.dev.accelerators accel).taskQueue ≠ [] ∨
      (system.dev.accelerators accel).running = false) :
    SubmitterWakes system accel ∨ StopperWakes system accel := by
  have watchful := watchful_of_run run accel
  obtain ⟨sleeping, notWoken⟩ := asleep
  rcases due with queued | cleared
  · have sawEmpty : (system.workers accel).SawEmpty := Or.inr (Or.inr sleeping)
    exact Or.inl ((watchful.queue sawEmpty notWoken).resolve_left queued)
  · have sawRunning : (system.workers accel).SawRunning := Or.inr sleeping
    refine Or.inr ((watchful.running sawRunning notWoken).resolve_left ?_)
    rw [cleared]
    simp

/-- A worker has gone to sleep, and a submitter has just queued a task for it. -/
def sleepingSchedule : Schedule Kernel.hz1000 (initial 0) where
  labels := workSchedule 0 5 ++ callSchedule 0 (.submit TaskDesc.zero) 7
  enabled := by decide +kernel

theorem no_lost_wakeup_sleeping :
    SubmitterWakes sleepingSchedule.final 0 ∨ StopperWakes sleepingSchedule.final 0 :=
  no_lost_wakeup Kernel.hz1000 _ _ sleepingSchedule.run 0
    ⟨by decide +kernel, by decide +kernel⟩ (Or.inl (by decide +kernel))

end CortexForge.Concurrent
