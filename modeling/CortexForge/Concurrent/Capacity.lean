import CortexForge.Concurrent.Solo
import CortexForge.Concurrent.Lookup

/-!
Contract: when SUBMIT runs out of slots.

`task_alloc` takes a slot off the free list and nothing ever brings one back: the
worker unlinks a finished task without `task_free`, and so does CANCEL. A pool of
`MAX_TASKS` slots therefore serves `MAX_TASKS` submissions over the whole life of
the device.

Owns: the exact condition under which `-ENOMEM` means that every slot is busy,
and the run in which none is.
-/

namespace CortexForge.Concurrent

open CortexForge.Foundation

/-- The slot holds a task that is still being submitted, PENDING or RUNNING. -/
def InFlight (system : System) (slot : Slot) : Prop :=
  (∃ thread, system.held thread = some slot) ∨
    (system.dev.tasks slot).state = .pending ∨ (system.dev.tasks slot).state = .running

/-- The slot holds a task that has ended and that no submission holds. -/
def Finished (system : System) (slot : Slot) : Prop :=
  (¬ ∃ thread, system.held thread = some slot) ∧
    ((system.dev.tasks slot).state = .complete ∨ (system.dev.tasks slot).state = .failed ∨
      (system.dev.tasks slot).state = .cancelled)

/-- If the next step of the thread returns `-ENOMEM` from SUBMIT, every slot is
in flight. -/
def CapacityKept (kernel : Kernel) (system : System) (thread : Nat) : Prop :=
  ∀ input event next desc,
    (machine kernel).step (.client thread input) system = some (event, next) →
    next.clients thread = .returned (.submit Errno.enomem.ret desc) →
    ∀ slot, InFlight system slot

section Allocated

variable {kernel : Kernel} {trace : List Event} {system : System}

/-- The counter counts the submissions that were given a slot. -/
theorem nextTaskId_eq_length (run : (machine kernel).Run trace system) :
    system.dev.nextTaskId.toNat = (assignedIds trace).length := by
  refine run.invariant (fun trace system =>
    system.dev.nextTaskId.toNat = (assignedIds trace).length) ?_ ?_
  · rintro _ ⟨ticks, rfl⟩
    show probe.nextTaskId.toNat = 0
    rw [probe_nextTaskId]
    rfl
  · intro trace system label event next run counted taken
    have stepped := stepped_of_step taken
    rw [stepped.dev, Action.apply_nextTaskId, assignedIds_snoc, List.length_append, ← counted]
    obtain ⟨actor, action⟩ := event
    cases action with
    | alloc slot taskId desc =>
        obtain ⟨thread, rest, -, free, rfl⟩ := stepped.alloc
        exact (ids_of_run run).next_toNat free
    | _ => rfl

/-- The free list is empty exactly when every slot has been given away. -/
theorem freeTasks_eq_nil_iff (run : (machine kernel).Run trace system) :
    system.dev.freeTasks = [] ↔ ¬ (assignedIds trace).length < maxTasks := by
  have counter := (ids_of_run run).counter
  rw [nextTaskId_eq_length run] at counter
  rw [← List.length_eq_zero_iff]
  omega

/-- A slot in flight is not finished. -/
theorem InFlight.not_finished {slot : Slot} (inFlight : InFlight system slot) :
    ¬ Finished system slot := by
  rintro ⟨notHeld, ended⟩
  rcases inFlight with held | pending | running
  · exact notHeld held
  · simp [pending] at ended
  · simp [running] at ended

/-- With an empty free list every other slot is finished. -/
theorem finished_of_not_inFlight (run : (machine kernel).Run trace system)
    (exhausted : system.dev.freeTasks = []) {slot : Slot}
    (notInFlight : ¬ InFlight system slot) : Finished system slot := by
  unfold InFlight at notInFlight
  simp only [not_or] at notInFlight
  obtain ⟨notHeld, notPending, notRunning⟩ := notInFlight
  refine ⟨notHeld, ?_⟩
  cases state : (system.dev.tasks slot).state with
  | free =>
      rcases (inv_of_run run).listed_or_held state with listed | held
      · rw [exhausted] at listed
        cases listed
      · exact absurd held notHeld
  | pending => exact absurd state notPending
  | running => exact absurd state notRunning
  | complete => exact Or.inl rfl
  | failed => exact Or.inr (Or.inl rfl)
  | cancelled => exact Or.inr (Or.inr rfl)

end Allocated

/-! ## The exact condition -/

/-- The allocation step of SUBMIT returns exactly when the free list is empty. -/
theorem step_enomem_iff (kernel : Kernel) {system : System} {thread : Nat} {desc : TaskDesc}
    {accel : AccelIndex} (allocating : system.clients thread = .submit desc accel .alloc) :
    (∃ input event next desc', (machine kernel).step (.client thread input) system =
        some (event, next) ∧
      next.clients thread = .returned (.submit Errno.enomem.ret desc')) ↔
      system.dev.freeTasks = [] := by
  constructor
  · rintro ⟨input, event, next, desc', taken, returned⟩
    obtain ⟨action, pc, moved, -, rfl⟩ := step_client_inv taken
    rw [allocating] at moved
    simp only [System.moveClient, Function.update_self] at returned
    cases input with
    | call call copied => simp [clientStep] at moved
    | advance choice =>
        cases free : system.dev.freeTasks with
        | nil => rfl
        | cons head rest =>
            simp only [clientStep, submitStep, free, Option.some.injEq, Prod.mk.injEq] at moved
            rw [← moved.2] at returned
            cases returned
  · intro exhausted
    have taken : clientStep kernel system.dev system.jiffies (.advance true)
        (system.clients thread) = some (.tau, .returned (.submit Errno.enomem.ret desc)) := by
      rw [allocating]
      simp [clientStep, submitStep, exhausted]
    exact ⟨_, _, _, desc, step_client taken, by simp [System.moveClient]⟩

/-- In every reachable state, a validated SUBMIT about to take a slot keeps the
promise exactly when fewer than `MAX_TASKS` submissions have been given a slot
since probe, or none of the slots given away is finished. -/
theorem capacityKept_iff (kernel : Kernel) (trace : List Event) (system : System)
    (run : (machine kernel).Run trace system) (thread : Nat) (desc : TaskDesc)
    (accel : AccelIndex) (allocating : system.clients thread = .submit desc accel .alloc) :
    CapacityKept kernel system thread ↔
      (assignedIds trace).length < maxTasks ∨ ∀ slot, ¬ Finished system slot := by
  have returns := step_enomem_iff kernel allocating
  have exhausted := freeTasks_eq_nil_iff run
  constructor
  · intro kept
    by_cases room : (assignedIds trace).length < maxTasks
    · exact Or.inl room
    · obtain ⟨input, event, next, desc', taken, returned⟩ := returns.mpr (exhausted.mpr room)
      exact Or.inr fun slot => (kept input event next desc' taken returned slot).not_finished
  · intro condition input event next desc' taken returned slot
    have empty := returns.mp ⟨input, event, next, desc', taken, returned⟩
    rcases condition with room | noneFinished
    · exact absurd room (exhausted.mp empty)
    · by_contra notInFlight
      exact noneFinished slot (finished_of_not_inFlight run empty notInFlight)

/-- The first SUBMIT on a fresh device is about to take its slot. -/
def firstSubmitSchedule : Schedule Kernel.hz1000 (initial 0) where
  labels := callSchedule 0 (.submit TaskDesc.zero) 0
  enabled := by decide +kernel

theorem capacityKept_firstSubmit : CapacityKept Kernel.hz1000 firstSubmitSchedule.final 0 := by
  have allocating : firstSubmitSchedule.final.clients 0 = .submit TaskDesc.zero 0 .alloc := by
    decide +kernel
  exact (capacityKept_iff Kernel.hz1000 firstSubmitSchedule.trace firstSubmitSchedule.final
    firstSubmitSchedule.run 0 TaskDesc.zero 0 allocating).mpr (Or.inl (by decide +kernel))

/-! ## A pool used up by finished tasks -/

/-- After `count` tasks have been submitted and completed one after the other on
accelerator 0. -/
structure Drained (count : Nat) (system : System) : Prop where
  resting : system.clients 0 = .idle ∨ ∃ reply, system.clients 0 = .returned reply
  unheld : ∀ thread, system.held thread = none
  atLoop : system.workers 0 = .loop
  running : (system.dev.accelerators 0).running = true
  emptyQueue : (system.dev.accelerators 0).taskQueue = []
  room : system.dev.freeTasks.length + count = maxTasks
  complete : ∀ slot, slot ∉ system.dev.freeTasks → (system.dev.tasks slot).state = .complete

theorem Drained.initial : Drained 0 (initial 0) where
  resting := Or.inl rfl
  unheld := fun _ => rfl
  atLoop := rfl
  running := rfl
  emptyQueue := rfl
  room := by
    show probe.freeTasks.length + 0 = maxTasks
    rw [probe_freeTasks, List.length_finRange, Nat.add_zero]
  complete := fun slot taken => by
    refine absurd ?_ taken
    show slot ∈ probe.freeTasks
    rw [probe_freeTasks]
    exact List.mem_finRange slot

/-- A resting client enters SUBMIT. -/
theorem Drained.enter {count : Nat} {system : System} (drained : Drained count system)
    (kernel : Kernel) :
    (machine kernel).Steps system [⟨.client 0, .tau⟩]
      (system.moveClient 0 .tau (.submit TaskDesc.zero 0 .alloc)) := by
  refine Machine.Steps.single (.client 0 (.call (.submit TaskDesc.zero) true)) (step_client ?_)
  rcases drained.resting with idle | ⟨reply, returned⟩
  · rw [idle]
    rfl
  · rw [returned]
    rfl

/-- What a SUBMIT for accelerator 0 leaves behind. -/
structure Submitted (slot : Slot) (rest : List Slot) (before after : Dev) : Prop where
  freeTasks : after.freeTasks = rest
  noDeadline : (after.tasks slot).timeoutMs = 0
  others : ∀ other, other ≠ slot → after.tasks other = before.tasks other
  taskQueue : (after.accelerators 0).taskQueue = (before.accelerators 0).taskQueue ++ [slot]
  running : (after.accelerators 0).running = (before.accelerators 0).running

/-- SUBMIT on its own, with the device it leaves. -/
theorem submitted_alone (kernel : Kernel) (now : UInt64) {dev : Dev} {slot : Slot}
    {rest : List Slot} (free : dev.freeTasks = slot :: rest) :
    ∃ actions after reply, Alone (clientProgram kernel now) dev
        (.submit TaskDesc.zero 0 .alloc) actions after (.returned reply) ∧
      Submitted slot rest dev after := by
  have accepted : validateDesc TaskDesc.zero = .ok 0 := by decide
  obtain ⟨actions, after, reply, alone, queued⟩ := submit_queues kernel now accepted free
  exact ⟨actions, after, reply, alone, queued.freeTasks, queued.carries.timeoutMs, queued.others,
    queued.taskQueue, queued.running⟩

/-- One more task is submitted and completed, with 12 ticks of sleep. -/
theorem Drained.round {count : Nat} {system : System} (drained : Drained count system)
    (kernel : Kernel) (left : count < maxTasks) :
    ∃ events next, (machine kernel).Steps system events next ∧ Drained (count + 1) next := by
  have room := drained.room
  obtain ⟨slot, rest, free⟩ : ∃ slot rest, system.dev.freeTasks = slot :: rest := by
    cases free : system.dev.freeTasks with
    | nil =>
        rw [free, List.length_nil] at room
        omega
    | cons slot rest => exact ⟨slot, rest, rfl⟩
  obtain ⟨actions, submittedDev, reply, submits, submitted⟩ :=
    submitted_alone kernel system.jiffies free
  have queue : (submittedDev.accelerators 0).taskQueue = [slot] := by
    rw [submitted.taskQueue, drained.emptyQueue]
    rfl
  have left := worked (UInt64.ofNat (system.ticks + 12)) 0 slot submittedDev
  have submitSteps := submits.client_steps 0
    (system.moveClient 0 .tau (.submit TaskDesc.zero 0 .alloc)) rfl
    (by simp [System.moveClient]) rfl
  simp only [System.moveClient, Function.update_idem] at submitSteps
  obtain ⟨workEvents, workSteps⟩ : ∃ events, (machine kernel).Steps
      { system with
        dev := submittedDev
        clients := Function.update system.clients 0 (.returned reply) } events
      { system with
        dev := afterRound (UInt64.ofNat (system.ticks + 12)) 0 slot submittedDev
        ticks := system.ticks + 12
        clients := Function.update system.clients 0 (.returned reply) } :=
    round_steps kernel 12 drained.atLoop (submitted.running.trans drained.running) queue
      submitted.noDeadline
  refine ⟨_, _, ((drained.enter kernel).trans submitSteps).trans workSteps, ?_⟩
  constructor
  · exact Or.inr ⟨reply, by simp⟩
  · intro thread
    by_cases same : thread = 0
    · simp [System.held, same, ClientPc.claim]
    · have unheld := drained.unheld thread
      simpa [System.held, same] using unheld
  · exact drained.atLoop
  · exact left.running.trans (submitted.running.trans drained.running)
  · refine left.taskQueue.trans ?_
    rw [queue]
    simp
  · refine (congrArg (fun list => List.length list + (count + 1)) left.freeTasks).trans ?_
    rw [submitted.freeTasks]
    rw [free, List.length_cons] at room
    omega
  · intro other listed
    by_cases same : other = slot
    · rw [same]
      exact left.complete
    · refine (congrArg Task.state (left.others other same)).trans ?_
      rw [submitted.others other same]
      refine drained.complete other ?_
      rw [free, List.mem_cons, not_or]
      refine ⟨same, ?_⟩
      rw [← submitted.freeTasks, ← left.freeTasks]
      exact listed

/-- The pool can be used up by completed tasks. -/
theorem drained_run (kernel : Kernel) (count : Nat) (within : count ≤ maxTasks) :
    ∃ trace system, (machine kernel).Run trace system ∧ Drained count system := by
  induction count with
  | zero => exact ⟨[], initial 0, ⟨initial 0, ⟨0, rfl⟩, .refl _⟩, Drained.initial⟩
  | succ count inductionHypothesis =>
      obtain ⟨trace, system, run, drained⟩ := inductionHypothesis (by omega)
      obtain ⟨events, next, steps, drained'⟩ := drained.round kernel (by omega)
      exact ⟨_, next, run.extend steps, drained'⟩

/-- After `MAX_TASKS` submissions, all of them completed and none in flight, the
next SUBMIT is refused. -/
theorem finished_tasks_exhaust_pool :
    ∃ trace system, (machine Kernel.hz1000).Run trace system ∧
      system.clients 0 = .submit TaskDesc.zero 0 .alloc ∧
      (∀ slot, (system.dev.tasks slot).state = .complete) ∧
      ¬ CapacityKept Kernel.hz1000 system 0 := by
  obtain ⟨trace, system, run, drained⟩ := drained_run Kernel.hz1000 maxTasks le_rfl
  have empty : system.dev.freeTasks = [] := by
    have room := drained.room
    rw [← List.length_eq_zero_iff]
    omega
  have complete (slot : Slot) : (system.dev.tasks slot).state = .complete :=
    drained.complete slot (by rw [empty]; exact List.not_mem_nil)
  have allocating : (system.moveClient 0 .tau (.submit TaskDesc.zero 0 .alloc)).clients 0 =
      .submit TaskDesc.zero 0 .alloc := by simp [System.moveClient]
  refine ⟨_, _, run.extend (drained.enter Kernel.hz1000), allocating, complete, ?_⟩
  intro kept
  obtain ⟨input, event, next, desc, taken, returned⟩ :=
    (step_enomem_iff Kernel.hz1000 allocating).mpr empty
  have inFlight := kept input event next desc taken returned 0
  refine inFlight.not_finished ⟨?_, Or.inl (complete 0)⟩
  rintro ⟨thread, held⟩
  by_cases same : thread = 0
  · simp [System.held, System.moveClient, same, ClientPc.claim, SubmitPhase.claim] at held
  · have unheld := drained.unheld thread
    simp only [System.held, System.moveClient, Function.update_of_ne same] at held
    rw [System.held, held] at unheld
    cases unheld

end CortexForge.Concurrent
