import CortexForge.Concurrent.Threads

/-!
Contract: the load an accelerator reports.

A worker adds 10 to `load_percent` when it starts a task and takes 10 off again when it
has completed it, with a clamp to 100 and one to 0. Nobody else stores the load, so it
is read off the program counter of the worker: 10 between the two stores and 0
elsewhere. Neither clamp nor the cast to `int` ever has anything to do.

Owns: the load as a function of the worker's program counter, over whole runs, and what
GET_ACCEL_INFO reports of it.
-/

namespace CortexForge.Concurrent

open CortexForge.Foundation

/-- The worker is between its raise and its lower of the load. -/
def WorkPhase.loaded : WorkPhase → Bool
  | .writeRunning | .raiseLoad | .completeAll | .unlink => false
  | .testTimeout | .readClock _ | .testClock _ _ | .testState _ _ | .sleep _ _ | .testStop _ _
  | .sleepShort | .readJiffies | .writeCompleteJiffies _ | .writeComplete | .writeError
  | .lowerLoad => true

/-- The tasks a worker is executing, from its raise to its lower of the load. -/
def WorkerPc.loads : WorkerPc → List Slot
  | .exec slot phase => if phase.loaded then [slot] else []
  | _ => []

/-- The largest `int`. -/
def intMax : Nat := 2147483647

/-- The load of an accelerator is accounted for in a state. -/
structure LoadAccounted (kernel : Kernel) (system : System) (accel : AccelIndex) : Prop where
  load : (system.dev.accelerators accel).loadPercent.toNat =
    10 * (system.workers accel).loads.length
  bound : (system.dev.accelerators accel).loadPercent ≤ 100
  cast : (system.dev.accelerators accel).loadPercent.toNat ≤ intMax
  /-- The clamp of the raise changes nothing, and the sum does not wrap. -/
  raises : ∀ slot, system.workers accel = .exec slot .raiseLoad →
    raiseLoad (system.dev.accelerators accel).loadPercent =
        (system.dev.accelerators accel).loadPercent + 10 ∧
      (raiseLoad (system.dev.accelerators accel).loadPercent).toNat =
        (system.dev.accelerators accel).loadPercent.toNat + 10
  /-- The clamp of the lower changes nothing, and the difference is not negative. -/
  lowers : ∀ slot, system.workers accel = .exec slot .lowerLoad →
    max 0 ((system.dev.accelerators accel).loadPercent.toInt32 - 10) =
        (system.dev.accelerators accel).loadPercent.toInt32 - 10 ∧
      (lowerLoad (system.dev.accelerators accel).loadPercent).toNat + 10 =
        (system.dev.accelerators accel).loadPercent.toNat
  snapshot : ∀ thread request choice, system.clients thread = .accelInfo request accel →
    ∃ reply, clientStep kernel system.dev system.jiffies (.advance choice)
        (system.clients thread) = some (.tau, .copyInfo reply) ∧
      reply.loadPercent.toNat = 10 * (system.workers accel).loads.length
  idle : (∀ slot phase, system.workers accel ≠ .exec slot phase) →
    (system.dev.accelerators accel).loadPercent = 0

/-! ## The load follows the program counter -/

/-- The load that belongs to a program counter. -/
def WorkerPc.load (pc : WorkerPc) : UInt32 := if pc.loads = [] then 0 else 10

/-- Every accelerator has the load of its worker's program counter. -/
def Loads (system : System) : Prop :=
  ∀ accel, (system.dev.accelerators accel).loadPercent = (system.workers accel).load

theorem Loads.initial (ticks : Nat) : Loads (initial ticks) := by
  intro accel
  rfl

section Step

variable {kernel : Kernel} {system next : System} {event : Event}

/-- The worker's own step moves the load and the program counter together. -/
theorem workerStep_load {dev : Dev} {now : UInt64} {expired : Bool} {accel : AccelIndex}
    {pc after : WorkerPc} {action : Action}
    (loads : (dev.accelerators accel).loadPercent = pc.load)
    (taken : workerStep kernel dev now expired accel pc = some (action, after)) :
    ((action.apply dev).accelerators accel).loadPercent = after.load := by
  rw [Action.apply_loadPercent, loads]
  cases workerTaken_of_step taken with
  | exec slot phase =>
      generalize moved : execStep kernel dev now accel slot phase = result
      cases phase <;> simp only [execStep] at moved <;> (try split at moved) <;>
        subst moved <;> simp [WorkerPc.load, WorkerPc.loads, WorkPhase.loaded] <;> decide
  | _ => simp [WorkerPc.load, WorkerPc.loads, WorkPhase.loaded]

/-- Nobody but the worker stores the load. -/
theorem Stepped.load_of_foreign (stepped : Stepped kernel system event next) {accel : AccelIndex}
    (foreign : event.actor ≠ .worker accel) :
    (next.dev.accelerators accel).loadPercent =
      (system.dev.accelerators accel).loadPercent := by
  have notRaise : event.action ≠ .touch accel .raiseLoad :=
    fun touches => foreign (stepped.madeBy touches)
  have notLower : event.action ≠ .touch accel .lowerLoad :=
    fun touches => foreign (stepped.madeBy touches)
  rw [stepped.dev, Action.apply_loadPercent, if_neg notRaise, if_neg notLower]

theorem Loads.step (loads : Loads system) (stepped : Stepped kernel system event next) :
    Loads next := by
  intro accel
  by_cases own : event.actor = .worker accel
  · obtain ⟨expired, taken⟩ := stepped.workerStep_of_actor own
    rw [stepped.dev]
    exact workerStep_load (loads accel) taken
  · rw [stepped.load_of_foreign own, stepped.workers_of_foreign own]
    exact loads accel

end Step

theorem loads_of_run {kernel : Kernel} {trace : List Event} {system : System}
    (run : (machine kernel).Run trace system) : Loads system := by
  refine run.invariant (fun _ => Loads) ?_ ?_
  · rintro _ ⟨ticks, rfl⟩
    exact Loads.initial ticks
  · intro trace system label event next _ loads taken
    exact loads.step (stepped_of_step taken)

/-- The load is 10 for each task under execution. -/
theorem WorkerPc.load_toNat (pc : WorkerPc) : pc.load.toNat = 10 * pc.loads.length := by
  cases pc with
  | exec slot phase =>
      cases loaded : phase.loaded <;> simp [WorkerPc.load, WorkerPc.loads, loaded]
  | _ => rfl

/-- Both stores of the load, and the cast, see only 0 and 10. -/
theorem Loads.accounted {system : System} (loads : Loads system) (kernel : Kernel)
    (accel : AccelIndex) : LoadAccounted kernel system accel := by
  have isLoad := loads accel
  have counted : (system.dev.accelerators accel).loadPercent.toNat =
      10 * (system.workers accel).loads.length := by
    rw [isLoad, WorkerPc.load_toNat]
  have small : (system.dev.accelerators accel).loadPercent = 0 ∨
      (system.dev.accelerators accel).loadPercent = 10 := by
    rw [isLoad, WorkerPc.load]
    split
    · exact Or.inl rfl
    · exact Or.inr rfl
  constructor
  · exact counted
  · rcases small with zero | ten
    · rw [zero]
      decide
    · rw [ten]
      decide
  · rcases small with zero | ten
    · rw [zero]
      decide
    · rw [ten]
      decide
  · intro slot raising
    have zero : (system.dev.accelerators accel).loadPercent = 0 := by
      rw [isLoad, raising]
      rfl
    rw [zero]
    decide
  · intro slot lowering
    have ten : (system.dev.accelerators accel).loadPercent = 10 := by
      rw [isLoad, lowering]
      rfl
    rw [ten]
    decide
  · intro thread request choice asking
    rw [asking]
    exact ⟨_, rfl, counted⟩
  · intro resting
    rw [isLoad]
    cases pc : system.workers accel with
    | exec slot phase => exact absurd pc (resting slot phase)
    | _ => rfl

/-! ## What GET_ACCEL_INFO reports -/

/-- The snapshot a GET_ACCEL_INFO call is about to copy out or has copied out. -/
def ClientPc.snapshot : ClientPc → Option AccelInfo
  | .copyInfo info => some info
  | .returned (.accelInfo ret info) => if ret = 0 then some info else none
  | _ => none

/-- The call took its snapshot in a state the run has passed through. -/
def Snapshots (kernel : Kernel) (start : System) (trace : List Event) (system : System) : Prop :=
  ∀ thread info, (system.clients thread).snapshot = some info →
    ∃ middle accel request, (machine kernel).Through start trace system middle ∧
      middle.clients thread = .accelInfo request accel ∧
      info = accelGetInfo (middle.dev.accelerators accel) request ∧
      info.loadPercent.toNat = 10 * (middle.workers accel).loads.length

/-- A call that begins has no snapshot. -/
theorem enterCall_snapshot (copied : Bool) (call : Call) :
    (enterCall copied call).snapshot = none := by
  have enters := entered copied call
  generalize enterCall copied call = pc at enters ⊢
  cases enters with
  | accelInfoFailed info errno => exact if_neg (Int.ne_of_lt errno.ret_neg)
  | _ => rfl

/-- A thread has a snapshot after a step if it takes it by the step or had it before. -/
theorem snapshot_of_step {kernel : Kernel} {dev : Dev} {now : UInt64} {input : ClientInput}
    {pc next : ClientPc} {action : Action} {info : AccelInfo}
    (taken : clientStep kernel dev now input pc = some (action, next))
    (reports : next.snapshot = some info) :
    pc.snapshot = some info ∨ ∃ request accel, pc = .accelInfo request accel ∧
      info = accelGetInfo (dev.accelerators accel) request := by
  cases clientTaken_of_step taken with
  | enter call copied pc resting =>
      rw [enterCall_snapshot] at reports
      cases reports
  | submit choice desc accel phase =>
      rcases submitStep_next dev now choice desc accel phase with ⟨after, next⟩ | ⟨ret, reply, next⟩
      · rw [next] at reports
        cases reports
      · rw [next] at reports
        cases reports
  | query choice taskId phase =>
      rcases queryStep_next kernel dev choice taskId phase with ⟨after, next⟩ | ⟨ret, answer, next⟩
      · rw [next] at reports
        cases reports
      · rw [next] at reports
        cases reports
  | cancel choice taskId phase =>
      rcases cancelStep_next dev taskId phase with ⟨after, next⟩ | ⟨ret, next⟩
      · rw [next] at reports
        cases reports
      · rw [next] at reports
        cases reports
  | accelInfo choice request accel =>
      cases reports
      exact Or.inr ⟨request, accel, rfl, rfl⟩
  | copyInfo choice snapshot =>
      left
      cases choice with
      | true => exact reports
      | false => cases reports

theorem snapshots_of_steps {kernel : Kernel} {ticks : Nat} {trace : List Event} {system : System}
    (steps : (machine kernel).Steps (initial ticks) trace system) :
    Snapshots kernel (initial ticks) trace system := by
  induction steps with
  | refl => intro thread info reports; cases reports
  | @snoc middle finish events event label steps _ taken inductionHypothesis =>
      intro thread info reports
      have stepped := stepped_of_step taken
      by_cases own : event.actor = .client thread
      · obtain ⟨input, moved⟩ := stepped.clientStep_of_actor own
        rcases snapshot_of_step moved reports with before | ⟨request, accel, asking, isInfo⟩
        · obtain ⟨state, accel, request, through, rest⟩ := inductionHypothesis thread info before
          exact ⟨state, accel, request, through.snoc taken, rest⟩
        · have loads := loads_of_run ⟨initial ticks, ⟨ticks, rfl⟩, steps⟩
          refine ⟨middle, accel, request, (Machine.Steps.through_last steps).snoc taken, asking,
            isInfo, ?_⟩
          rw [isInfo]
          exact (loads.accounted kernel accel).load
      · rw [stepped.clients_of_foreign own] at reports
        obtain ⟨state, accel, request, through, rest⟩ := inductionHypothesis thread info reports
        exact ⟨state, accel, request, through.snoc taken, rest⟩

/-! ## Load accounting -/

/-- In every run, at every point, each accelerator's load is 10 for the task its worker
is executing and 0 if there is none, no clamp or cast changes it, and GET_ACCEL_INFO
reports the load of the moment at which it takes its snapshot. -/
theorem load_accounting (kernel : Kernel) (ticks : Nat) (trace : List Event) (system : System)
    (steps : (machine kernel).Steps (initial ticks) trace system) :
    (∀ accel, LoadAccounted kernel system accel) ∧
      Snapshots kernel (initial ticks) trace system := by
  have loads := loads_of_run ⟨initial ticks, ⟨ticks, rfl⟩, steps⟩
  exact ⟨fun accel => loads.accounted kernel accel, snapshots_of_steps steps⟩

/-- A request for the information on accelerator 0. -/
def infoRequest : AccelInfo := ⟨0, 0, 0, 0, 0, 0, 0, 0, 0, fun _ => 0⟩

/-- A task is under execution on accelerator 0, and a client has asked for the load. -/
def loadedSchedule : Schedule Kernel.hz1000 (initial 0) where
  labels := callSchedule 0 (.submit TaskDesc.zero) 10 ++ workSchedule 0 8 ++
    callSchedule 1 (.accelInfo infoRequest) 2
  enabled := by decide +kernel

theorem load_accounting_loaded :
    (loadedSchedule.final.workers 0).loads = [0] ∧
      (loadedSchedule.final.dev.accelerators 0).loadPercent.toNat = 10 := by
  have executing : (loadedSchedule.final.workers 0).loads = [0] := by decide +kernel
  have accounted := (load_accounting Kernel.hz1000 0 loadedSchedule.trace loadedSchedule.final
    (Machine.steps_of_execute loadedSchedule.executed)).1 0
  refine ⟨executing, ?_⟩
  rw [accounted.load, executing]
  rfl

end CortexForge.Concurrent
