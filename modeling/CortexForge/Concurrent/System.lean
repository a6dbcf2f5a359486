import CortexForge.Foundation.Machine
import CortexForge.Concurrent.Client
import CortexForge.Concurrent.Worker

/-!
Contract: the running driver as one machine.

Any number of client threads, the worker of each accelerator, the stopping
thread and the clock take their atomic steps in any order. A run starts from
the device that a successful probe leaves, at any value of the clock. Plain loads
and stores are assumed to take effect in the order of the source (`Concurrent.Action`).

Owns: the system state, its machine, and the inversion of a step into the step
of one thread.
-/

namespace CortexForge.Concurrent

open CortexForge.Foundation

/-- The whole system. `ticks` is the true number of clock ticks; `jiffies` is
its image in an `unsigned long`. -/
structure System where
  dev : Dev
  ticks : Nat
  clients : Nat → ClientPc
  workers : AccelIndex → WorkerPc
  stopper : StopperPc

/-- The kernel's `jiffies`. -/
def System.jiffies (system : System) : UInt64 := UInt64.ofNat system.ticks

/-- Which thread takes the next step, and what its environment decides. -/
inductive Label where
  | client (thread : Nat) (input : ClientInput)
  | worker (accel : AccelIndex) (expired : Bool)
  | stopper
  | tick

/-- One step of the system. -/
def step (kernel : Kernel) : Label → System → Option (Event × System)
  | .client thread input, system =>
      (clientStep kernel system.dev system.jiffies input (system.clients thread)).map
        fun (action, pc) =>
          (⟨.client thread, action⟩,
            { system with
              dev := action.apply system.dev
              clients := Function.update system.clients thread pc })
  | .worker accel expired, system =>
      (workerStep kernel system.dev system.jiffies expired accel (system.workers accel)).map
        fun (action, pc) =>
          (⟨.worker accel, action⟩,
            { system with
              dev := action.apply system.dev
              workers := Function.update system.workers accel pc })
  | .stopper, system =>
      (stopperStep system.dev system.workers system.stopper).map
        fun (action, pc) =>
          (⟨.stopper, action⟩,
            { system with dev := action.apply system.dev, stopper := pc })
  | .tick, system => some (⟨.clock, .tau⟩, { system with ticks := system.ticks + 1 })

/-- The system after a successful probe: no call is in flight, every worker is
at the head of its loop. -/
def initial (ticks : Nat) : System where
  dev := probe
  ticks := ticks
  clients := fun _ => .idle
  workers := fun _ => .loop
  stopper := .idle

/-- The machine of the driver. -/
def machine (kernel : Kernel) : Machine System Label Event where
  Initial := fun system => ∃ ticks, system = initial ticks
  step := step kernel

/-- The run that has taken no step. -/
theorem run_initial (kernel : Kernel) (ticks : Nat) :
    (machine kernel).Run [] (initial ticks) :=
  ⟨_, ⟨ticks, rfl⟩, Machine.Steps.refl _⟩

/-- The system after a step of a client. -/
def System.moveClient (system : System) (thread : Nat) (action : Action) (pc : ClientPc) :
    System :=
  { system with
    dev := action.apply system.dev
    clients := Function.update system.clients thread pc }

/-- The system after a step of a worker. -/
def System.moveWorker (system : System) (accel : AccelIndex) (action : Action) (pc : WorkerPc) :
    System :=
  { system with
    dev := action.apply system.dev
    workers := Function.update system.workers accel pc }

theorem step_client {kernel : Kernel} {system : System} {thread : Nat} {input : ClientInput}
    {action : Action} {pc : ClientPc}
    (taken : clientStep kernel system.dev system.jiffies input (system.clients thread) =
      some (action, pc)) :
    (machine kernel).step (.client thread input) system =
      some (⟨.client thread, action⟩, system.moveClient thread action pc) := by
  show step kernel (.client thread input) system = _
  simp only [step, taken]
  rfl

theorem step_client_inv {kernel : Kernel} {system next : System} {thread : Nat}
    {input : ClientInput} {event : Event}
    (taken : (machine kernel).step (.client thread input) system = some (event, next)) :
    ∃ action pc, clientStep kernel system.dev system.jiffies input (system.clients thread) =
        some (action, pc) ∧
      event = ⟨.client thread, action⟩ ∧ next = system.moveClient thread action pc := by
  change step kernel (.client thread input) system = some (event, next) at taken
  simp only [step, Option.map_eq_some_iff, Prod.mk.injEq] at taken
  obtain ⟨⟨action, pc⟩, moved, rfl, rfl⟩ := taken
  exact ⟨action, pc, moved, rfl, rfl⟩

/-- What the client that steps keeps, all clients keep. -/
theorem clients_of_step {kernel : Kernel} {label : Label} {system next : System} {event : Event}
    (Keeps : ClientPc → Prop) (held : ∀ thread, Keeps (system.clients thread))
    (kept : ∀ thread input action pc, label = .client thread input →
      clientStep kernel system.dev system.jiffies input (system.clients thread) =
        some (action, pc) → Keeps pc)
    (taken : (machine kernel).step label system = some (event, next)) (thread : Nat) :
    Keeps (next.clients thread) := by
  cases label with
  | client other input =>
      obtain ⟨action, pc, moved, rfl, rfl⟩ := step_client_inv taken
      by_cases same : thread = other
      · rw [same]
        simpa [System.moveClient] using kept other input action pc rfl moved
      · simpa [System.moveClient, same] using held thread
  | worker accel expired =>
      change step kernel (.worker accel expired) system = some (event, next) at taken
      simp only [step, Option.map_eq_some_iff, Prod.mk.injEq] at taken
      obtain ⟨⟨action, pc⟩, moved, rfl, rfl⟩ := taken
      exact held thread
  | stopper =>
      change step kernel .stopper system = some (event, next) at taken
      simp only [step, Option.map_eq_some_iff, Prod.mk.injEq] at taken
      obtain ⟨⟨action, pc⟩, moved, rfl, rfl⟩ := taken
      exact held thread
  | tick =>
      change step kernel .tick system = some (event, next) at taken
      simp only [step, Option.some.injEq, Prod.mk.injEq] at taken
      obtain ⟨rfl, rfl⟩ := taken
      exact held thread

theorem step_worker {kernel : Kernel} {system : System} {accel : AccelIndex} {expired : Bool}
    {action : Action} {pc : WorkerPc}
    (taken : workerStep kernel system.dev system.jiffies expired accel (system.workers accel) =
      some (action, pc)) :
    (machine kernel).step (.worker accel expired) system =
      some (⟨.worker accel, action⟩, system.moveWorker accel action pc) := by
  show step kernel (.worker accel expired) system = _
  simp only [step, taken]
  rfl

theorem step_stopper {kernel : Kernel} {system : System} {action : Action} {pc : StopperPc}
    (taken : stopperStep system.dev system.workers system.stopper = some (action, pc)) :
    (machine kernel).step .stopper system =
      some (⟨.stopper, action⟩,
        { system with dev := action.apply system.dev, stopper := pc }) := by
  show step kernel .stopper system = _
  simp only [step, taken]
  rfl

/-- The clock ticks while nobody moves. -/
theorem steps_tick (kernel : Kernel) (system : System) (count : Nat) :
    (machine kernel).Steps system (List.replicate count ⟨.clock, .tau⟩)
      { system with ticks := system.ticks + count } := by
  induction count with
  | zero => exact .refl system
  | succ count inductionHypothesis =>
      rw [List.replicate_succ']
      exact inductionHypothesis.trans (Machine.Steps.single .tick rfl)

/-! ## Schedules -/

/-- A thread makes a call and takes `count` further steps in it; every copy
succeeds. -/
def callSchedule (thread : Nat) (call : Call) (count : Nat) : List Label :=
  .client thread (.call call true) :: List.replicate count (.client thread (.advance true))

/-- A worker takes `count` steps. -/
def workSchedule (accel : AccelIndex) (count : Nat) : List Label :=
  List.replicate count (.worker accel false)

/-- A worker sleeps in `msleep(10)`. At 1000 ticks a second that is ten ticks or more; how
many more depends on the kernel. -/
def sleepSchedule : List Label := List.replicate 12 .tick

/-- A worker takes a task without a timeout through one round of its loop. -/
def roundSchedule (accel : AccelIndex) : List Label :=
  workSchedule accel 9 ++ sleepSchedule ++ workSchedule accel 8

/-- A schedule that can be executed from a state. -/
structure Schedule (kernel : Kernel) (start : System) where
  labels : List Label
  enabled : ((machine kernel).execute labels start).isSome

namespace Schedule

variable {kernel : Kernel} {start : System} (schedule : Schedule kernel start)

def trace : List Event :=
  (((machine kernel).execute schedule.labels start).get schedule.enabled).1

def final : System :=
  (((machine kernel).execute schedule.labels start).get schedule.enabled).2

theorem executed :
    (machine kernel).execute schedule.labels start = some (schedule.trace, schedule.final) :=
  (Option.some_get schedule.enabled).symm

/-- A schedule whose steps all meet a decidable side condition is a run under
it. -/
theorem stepsWhere (Good : System → Event → Prop)
    [∀ state event, Decidable (Good state event)]
    (passed : (machine kernel).passes (fun state event => decide (Good state event))
      schedule.labels start = true) :
    (machine kernel).StepsWhere Good start schedule.trace schedule.final :=
  (Machine.stepsWhere_of_passes schedule.executed passed).mono fun _ _ => of_decide_eq_true

/-- What `note` takes down of a schedule. -/
def notes {Item : Type} (note : System → Event → Option Item) : List Item :=
  (machine kernel).notesOf note schedule.labels start

/-- A schedule is a run with its notes. -/
theorem noted {Item : Type} (note : System → Event → Option Item) :
    (machine kernel).StepsNoting (fun _ _ => True) note start schedule.trace
      (schedule.notes note) schedule.final :=
  Machine.stepsNoting_of_execute note (fun _ _ => True)
    (fun _ _ _ _ _ _ _ => ⟨trivial, trivial⟩) schedule.executed trivial

/-- The same for a schedule whose steps all meet a decidable side condition. -/
theorem notedWhere {Item : Type} (note : System → Event → Option Item)
    (Good : System → Event → Prop) [∀ state event, Decidable (Good state event)]
    (passed : (machine kernel).passes (fun state event => decide (Good state event))
      schedule.labels start = true) :
    (machine kernel).StepsNoting Good note start schedule.trace (schedule.notes note)
      schedule.final :=
  (Machine.stepsNoting_of_passes note schedule.executed passed).mono fun _ _ =>
    of_decide_eq_true

/-- A schedule from a freshly probed device is a run of the driver. -/
theorem run {ticks : Nat} (schedule : Schedule kernel (initial ticks)) :
    (machine kernel).Run schedule.trace schedule.final :=
  ⟨initial ticks, ⟨ticks, rfl⟩, Machine.steps_of_execute schedule.executed⟩

end Schedule

/-! ## Inversion -/

/-- A step is the step of one thread. -/
inductive Stepped (kernel : Kernel) (system : System) : Event → System → Prop
  | client (thread : Nat) (input : ClientInput) (action : Action) (pc : ClientPc)
      (taken : clientStep kernel system.dev system.jiffies input (system.clients thread) =
        some (action, pc)) :
      Stepped kernel system ⟨.client thread, action⟩
        { system with
          dev := action.apply system.dev
          clients := Function.update system.clients thread pc }
  | worker (accel : AccelIndex) (expired : Bool) (action : Action) (pc : WorkerPc)
      (taken : workerStep kernel system.dev system.jiffies expired accel
        (system.workers accel) = some (action, pc)) :
      Stepped kernel system ⟨.worker accel, action⟩
        { system with
          dev := action.apply system.dev
          workers := Function.update system.workers accel pc }
  | stopper (action : Action) (pc : StopperPc)
      (taken : stopperStep system.dev system.workers system.stopper = some (action, pc)) :
      Stepped kernel system ⟨.stopper, action⟩
        { system with dev := action.apply system.dev, stopper := pc }
  | tick : Stepped kernel system ⟨.clock, .tau⟩ { system with ticks := system.ticks + 1 }

theorem stepped_of_step {kernel : Kernel} {label : Label} {system next : System}
    {event : Event} (taken : (machine kernel).step label system = some (event, next)) :
    Stepped kernel system event next := by
  change step kernel label system = some (event, next) at taken
  cases label with
  | client thread input =>
      simp only [step, Option.map_eq_some_iff, Prod.mk.injEq] at taken
      obtain ⟨⟨action, pc⟩, moved, rfl, rfl⟩ := taken
      exact .client thread input action pc moved
  | worker accel expired =>
      simp only [step, Option.map_eq_some_iff, Prod.mk.injEq] at taken
      obtain ⟨⟨action, pc⟩, moved, rfl, rfl⟩ := taken
      exact .worker accel expired action pc moved
  | stopper =>
      simp only [step, Option.map_eq_some_iff, Prod.mk.injEq] at taken
      obtain ⟨⟨action, pc⟩, moved, rfl, rfl⟩ := taken
      exact .stopper action pc moved
  | tick =>
      simp only [step, Option.some.injEq, Prod.mk.injEq] at taken
      obtain ⟨rfl, rfl⟩ := taken
      exact .tick

/-- The device changes only by the recorded action. -/
theorem Stepped.dev {kernel : Kernel} {system next : System} {event : Event}
    (stepped : Stepped kernel system event next) :
    next.dev = event.action.apply system.dev := by
  cases stepped <;> rfl

/-- A step of another thread leaves a client where it is. -/
theorem Stepped.clients_of_foreign {kernel : Kernel} {system next : System} {event : Event}
    {thread : Nat} (stepped : Stepped kernel system event next)
    (foreign : event.actor ≠ .client thread) :
    next.clients thread = system.clients thread := by
  cases stepped with
  | client other input action pc taken =>
      have different : thread ≠ other := fun same => foreign (by rw [same])
      simp [different]
  | _ => rfl

/-- A client that takes no step of a run stays where it is. -/
theorem clients_of_silent {kernel : Kernel} {start finish : System} {trace : List Event}
    {thread : Nat} (steps : (machine kernel).Steps start trace finish)
    (silent : ∀ event ∈ trace, event.actor ≠ .client thread) :
    finish.clients thread = start.clients thread := by
  induction steps with
  | refl => rfl
  | snoc steps _ taken inductionHypothesis =>
      have foreign := silent _ (List.mem_append_right _ (List.mem_singleton_self _))
      rw [(stepped_of_step taken).clients_of_foreign foreign]
      exact inductionHypothesis fun event member => silent event (List.mem_append_left _ member)

/-- A client that is not among the actors of a schedule stays where it is. -/
theorem Schedule.clients_of_absent {kernel : Kernel} {start : System}
    (schedule : Schedule kernel start) {actors : List Actor} {thread : Nat}
    (only : ∀ event ∈ schedule.trace, event.actor ∈ actors)
    (absent : .client thread ∉ actors) :
    schedule.final.clients thread = start.clients thread := by
  refine clients_of_silent (Machine.steps_of_execute schedule.executed) ?_
  intro event member isThread
  exact absent (isThread ▸ only event member)

/-- A client's own step is a step of its program. -/
theorem Stepped.clientStep_of_actor {kernel : Kernel} {system next : System} {event : Event}
    {thread : Nat} (stepped : Stepped kernel system event next)
    (own : event.actor = .client thread) :
    ∃ input, clientStep kernel system.dev system.jiffies input (system.clients thread) =
      some (event.action, next.clients thread) := by
  cases stepped with
  | client other input action pc taken =>
      cases own
      exact ⟨input, by simpa using taken⟩
  | _ => cases own

/-- A step of another thread leaves a worker where it is. -/
theorem Stepped.workers_of_foreign {kernel : Kernel} {system next : System} {event : Event}
    {accel : AccelIndex} (stepped : Stepped kernel system event next)
    (foreign : event.actor ≠ .worker accel) :
    next.workers accel = system.workers accel := by
  cases stepped with
  | worker other expired action pc taken =>
      have different : accel ≠ other := fun same => foreign (by rw [same])
      simp [different]
  | _ => rfl

/-- A worker's own step is a step of its program. -/
theorem Stepped.workerStep_of_actor {kernel : Kernel} {system next : System} {event : Event}
    {accel : AccelIndex} (stepped : Stepped kernel system event next)
    (own : event.actor = .worker accel) :
    ∃ expired, workerStep kernel system.dev system.jiffies expired accel
      (system.workers accel) = some (event.action, next.workers accel) := by
  cases stepped with
  | worker other expired action pc taken =>
      cases own
      exact ⟨expired, by simpa using taken⟩
  | _ => cases own

/-- A step of another thread leaves the stopping thread where it is. -/
theorem Stepped.stopper_of_foreign {kernel : Kernel} {system next : System} {event : Event}
    (stepped : Stepped kernel system event next) (foreign : event.actor ≠ .stopper) :
    next.stopper = system.stopper := by
  cases stepped with
  | stopper action pc taken => exact absurd rfl foreign
  | _ => rfl

/-- The stopping thread's own step is a step of its program. -/
theorem Stepped.stopperStep_of_actor {kernel : Kernel} {system next : System} {event : Event}
    (stepped : Stepped kernel system event next) (own : event.actor = .stopper) :
    stopperStep system.dev system.workers system.stopper =
      some (event.action, next.stopper) := by
  cases stepped with
  | stopper action pc taken => exact taken
  | _ => cases own

end CortexForge.Concurrent
