import CortexForge.Foundation.Machine
import Mathlib.Data.Nat.Bitwise

/-!
Contract: the interrupt handlers, and the delivery of acknowledged events.

`irq_ack` clears the source in the hardware and returns the events, so the word
`pending_events` is their only copy on the way from the hard handler to the threaded
one. The line is requested without `IRQF_ONESHOT`: the hard handler may run again before
the thread has started and while it runs. It never runs twice at once, and waking a
thread that is already woken leaves one run of it.

Owns: the two handlers, their interleavings, the condition on the store, the start and
the read under which no event is lost or seen twice, and the runs in which one is.

Does not own: the code behind `irq_ack`, which the SoC supplies, or the request of the
line in `cortex_forge_irq_init`.
-/

namespace CortexForge

open CortexForge.Foundation

universe u

/-! ## The handlers -/

/-- `irqreturn_t`. -/
inductive IrqReturn where
  | none
  | handled
  | wakeThread
deriving DecidableEq, Repr

/-- `struct cortex_forge_hw_ops`, as far as the handlers use it. `Hw` is the state of
the hardware that `irq_ack` reads and clears. -/
structure HwOps (Hw : Type u) where
  irqAck : Option (Hw → UInt32 × Hw)

/-- `struct cortex_forge_soc_data`, as far as the handlers use it. -/
structure SocData (Hw : Type u) where
  ops : Option (HwOps Hw)

variable {Hw : Type u}

/-- The first half of the hard handler: the events to store, or `none` where it returns
`IRQ_NONE`. -/
def SocData.acknowledge (soc : SocData Hw) (hardware : Hw) : Option UInt32 × Hw :=
  match soc.ops with
  | none => (none, hardware)
  | some ops =>
      match ops.irqAck with
      | none => (none, hardware)
      | some irqAck =>
          -- Shared line: a zero mask says that the interrupt is not ours.
          if (irqAck hardware).1 = 0 then (none, (irqAck hardware).2)
          else (some (irqAck hardware).1, (irqAck hardware).2)

/-- `cortex_forge_hardirq` on the hardware and on `pending_events`. -/
def cortexForgeHardirq (soc : SocData Hw) (hardware : Hw) (pendingEvents : UInt32) :
    IrqReturn × Hw × UInt32 :=
  match soc.acknowledge hardware with
  | (none, hardware) => (.none, hardware, pendingEvents)
  | (some events, hardware) => (.wakeThread, hardware, events)

/-- `cortex_forge_threaded_irq`: the events it reads, and what it returns. -/
def cortexForgeThreadedIrq (pendingEvents : UInt32) : UInt32 × IrqReturn :=
  (pendingEvents, .handled)

/-! ## Interleavings -/

/-- Where the hard handler is. -/
inductive HardirqPc where
  | idle
  | storing (events : UInt32)
  | waking
deriving DecidableEq, Repr

/-- The events that the hard handler has acknowledged and not yet stored. -/
def HardirqPc.inFlight : HardirqPc → UInt32
  | .storing events => events
  | .idle => 0
  | .waking => 0

/-- Where the handler thread is: waiting to be woken, or before its read. -/
inductive ThreadPc where
  | waiting
  | running
deriving DecidableEq, Repr

/-- The device between two steps. `wakePending` is the flag by which the kernel asks the
thread to run once more. -/
structure IrqState (Hw : Type u) where
  hardware : Hw
  pendingEvents : UInt32
  wakePending : Bool
  hardirq : HardirqPc
  thread : ThreadPc

/-- Who takes the next step; the hardware may change in any way. -/
inductive IrqLabel (Hw : Type u) where
  | hardware (next : Hw)
  | hardirq
  | thread

inductive IrqEvent where
  | hardware
  | notOurs
  | acked (events : UInt32)
  | stored (events : UInt32)
  | woken
  | started
  | read (events : UInt32)
deriving DecidableEq, Repr

/-- One step of the hard handler. -/
def hardirqStep (soc : SocData Hw) (state : IrqState Hw) : IrqEvent × IrqState Hw :=
  match state.hardirq with
  | .idle =>
      match soc.acknowledge state.hardware with
      | (none, hardware) => (.notOurs, { state with hardware })
      | (some events, hardware) =>
          (.acked events, { state with hardware, hardirq := .storing events })
  | .storing events =>
      (.stored events, { state with pendingEvents := events, hardirq := .waking })
  | .waking => (.woken, { state with wakePending := true, hardirq := .idle })

/-- One step of the handler thread, which takes the request before it runs. -/
def threadStep (state : IrqState Hw) : Option (IrqEvent × IrqState Hw) :=
  match state.thread with
  | .waiting =>
      if state.wakePending then
        some (.started, { state with wakePending := false, thread := .running })
      else none
  | .running =>
      some (.read (cortexForgeThreadedIrq state.pendingEvents).1, { state with thread := .waiting })

/-- The handlers as a machine. Nothing initialises `pending_events`. -/
def irqMachine (soc : SocData Hw) : Machine (IrqState Hw) (IrqLabel Hw) IrqEvent where
  Initial state := state.wakePending = false ∧ state.hardirq = .idle ∧ state.thread = .waiting
  step label state :=
    match label with
    | .hardware next => some (.hardware, { state with hardware := next })
    | .hardirq => some (hardirqStep soc state)
    | .thread => threadStep state

/-- Everything a step can do. -/
inductive IrqMove (soc : SocData Hw) (state : IrqState Hw) : IrqEvent → IrqState Hw → Prop
  | hardware (next : Hw) : IrqMove soc state .hardware { state with hardware := next }
  | notOurs (next : Hw) (idle : state.hardirq = .idle)
      (refused : soc.acknowledge state.hardware = (none, next)) :
      IrqMove soc state .notOurs { state with hardware := next }
  | acked (next : Hw) (events : UInt32) (idle : state.hardirq = .idle)
      (granted : soc.acknowledge state.hardware = (some events, next)) :
      IrqMove soc state (.acked events)
        { state with hardware := next, hardirq := .storing events }
  | stored (events : UInt32) (storing : state.hardirq = .storing events) :
      IrqMove soc state (.stored events)
        { state with pendingEvents := events, hardirq := .waking }
  | woken (waking : state.hardirq = .waking) :
      IrqMove soc state .woken { state with wakePending := true, hardirq := .idle }
  | started (waiting : state.thread = .waiting) (woken : state.wakePending = true) :
      IrqMove soc state .started { state with wakePending := false, thread := .running }
  | read (running : state.thread = .running) :
      IrqMove soc state (.read state.pendingEvents) { state with thread := .waiting }

theorem irqMove_of_step {soc : SocData Hw} {label : IrqLabel Hw} {state next : IrqState Hw}
    {event : IrqEvent} (taken : (irqMachine soc).step label state = some (event, next)) :
    IrqMove soc state event next := by
  cases label with
  | hardware hardware =>
      cases taken
      exact .hardware hardware
  | hardirq =>
      simp only [irqMachine, hardirqStep] at taken
      split at taken
      next idle =>
        split at taken
        next hardware refused =>
          cases taken
          exact .notOurs hardware idle refused
        next events hardware granted =>
          cases taken
          exact .acked hardware events idle granted
      next events storing =>
        cases taken
        exact .stored events storing
      next waking =>
        cases taken
        exact .woken waking
  | thread =>
      simp only [irqMachine, threadStep] at taken
      split at taken
      next waiting =>
        split at taken
        next woken =>
          cases taken
          exact .started waiting woken
        next => contradiction
      next running =>
        cases taken
        exact .read running

/-! ## The handlers undisturbed -/

/-- A hard handler that nothing disturbs is the function of the source. -/
theorem hardirq_alone (soc : SocData Hw) (state : IrqState Hw) (idle : state.hardirq = .idle) :
    ∃ events, (irqMachine soc).Steps state events
      { state with
        hardware := (cortexForgeHardirq soc state.hardware state.pendingEvents).2.1
        pendingEvents := (cortexForgeHardirq soc state.hardware state.pendingEvents).2.2
        wakePending := state.wakePending ||
          (cortexForgeHardirq soc state.hardware state.pendingEvents).1 == .wakeThread } := by
  have handler (state : IrqState Hw) :
      (irqMachine soc).step .hardirq state = some (hardirqStep soc state) := rfl
  rw [cortexForgeHardirq]
  split
  next hardware refused =>
    refine ⟨[.notOurs], Machine.Steps.single .hardirq ?_⟩
    simp [handler, hardirqStep, idle, refused]
  next events hardware granted =>
    have executed : (irqMachine soc).execute [.hardirq, .hardirq, .hardirq] state =
        some ([.acked events, .stored events, .woken],
          { state with hardware, pendingEvents := events, wakePending := true }) := by
      simp [Machine.execute, handler, hardirqStep, idle, granted]
    exact ⟨_, by simpa using Machine.steps_of_execute executed⟩

/-- A woken thread that nothing disturbs reads the word once. -/
theorem thread_alone (soc : SocData Hw) (state : IrqState Hw) (waiting : state.thread = .waiting)
    (woken : state.wakePending = true) :
    (irqMachine soc).Steps state
      [.started, .read (cortexForgeThreadedIrq state.pendingEvents).1]
      { state with wakePending := false } := by
  have thread (state : IrqState Hw) :
      (irqMachine soc).step .thread state = threadStep state := rfl
  have executed : (irqMachine soc).execute [.thread, .thread] state =
      some ([.started, .read (cortexForgeThreadedIrq state.pendingEvents).1],
        { state with wakePending := false }) := by
    simp [Machine.execute, thread, threadStep, waiting, woken]
  exact Machine.steps_of_execute executed

/-- An interrupt that nothing disturbs: the hard handler, and then the thread, which reads what
`irq_ack` has returned. -/
theorem interrupt_alone (soc : SocData Hw) (state : IrqState Hw) (idle : state.hardirq = .idle)
    (waiting : state.thread = .waiting) {events : UInt32} {hardware : Hw}
    (acknowledged : soc.acknowledge state.hardware = (some events, hardware)) :
    ∃ trace, (irqMachine soc).Steps state (trace ++ [.started, .read events])
      { state with hardware := hardware, pendingEvents := events, wakePending := false } := by
  obtain ⟨trace, hard⟩ := hardirq_alone soc state idle
  simp only [cortexForgeHardirq, acknowledged, beq_self_eq_true, Bool.or_true] at hard
  exact ⟨trace, hard.trans (thread_alone soc _ waiting rfl)⟩

/-! ## Delivery -/

/-- Whether a mask has an event bit. -/
def hasBit (events : UInt32) (bit : Nat) : Bool := events.toNat.testBit bit

@[simp] theorem hasBit_zero (bit : Nat) : hasBit 0 bit = false := by
  simp [hasBit]

@[simp] theorem hasBit_and (left right : UInt32) (bit : Nat) :
    hasBit (left &&& right) bit = (hasBit left bit && hasBit right bit) := by
  simp [hasBit]

/-- The event acknowledges the bit. -/
def IrqEvent.acks (bit : Nat) : IrqEvent → Bool
  | .acked events => hasBit events bit
  | _ => false

/-- The event is a run of the thread that reads the bit. -/
def IrqEvent.reads (bit : Nat) : IrqEvent → Bool
  | .read events => hasBit events bit
  | _ => false

/-- Every acknowledged event is read by a later run of the thread, and by no second one
unless it is acknowledged again in between. -/
structure DeliveredOnce (trace : List IrqEvent) : Prop where
  seen : ∀ before acked after bit, trace = before ++ acked :: after → acked.acks bit = true →
    ∃ later ∈ after, later.reads bit = true
  once : ∀ before first between second after bit,
    trace = before ++ first :: between ++ second :: after →
    first.reads bit = true → second.reads bit = true →
    ∃ acked ∈ between, acked.acks bit = true

/-- The thread has run after the last hard handler. -/
structure IrqState.Quiescent (state : IrqState Hw) : Prop where
  hardirq : state.hardirq = .idle
  notWoken : state.wakePending = false
  thread : state.thread = .waiting

/-- The steps that keep events apart. Events are stored only while the thread is not
about to read, and over unread events only if they contain these; the thread starts only
when no wake-up is on its way; and it reads no event that the hard handler has just
acknowledged again. -/
def KeepsEvents (state : IrqState Hw) : IrqEvent → Prop
  | .stored events => state.thread = .waiting ∧
      (state.wakePending = true → state.pendingEvents &&& events = state.pendingEvents)
  | .started => state.hardirq ≠ .waking
  | .read events => events &&& state.hardirq.inFlight = 0
  | _ => True

instance (state : IrqState Hw) : (event : IrqEvent) → Decidable (KeepsEvents state event)
  | .stored _ => inferInstanceAs (Decidable (_ ∧ (_ → _)))
  | .started => inferInstanceAs (Decidable (_ ≠ _))
  | .read _ => inferInstanceAs (Decidable (_ = _))
  | .hardware | .notOurs | .acked _ | .woken => inferInstanceAs (Decidable True)

/-- A run of the thread over the stored word is due or under way. -/
def IrqState.Unread (state : IrqState Hw) : Prop :=
  state.wakePending = true ∨ state.thread = .running ∨ state.hardirq = .waking

/-- The bit is on its way to the thread. -/
def IrqState.Holds (state : IrqState Hw) (bit : Nat) : Prop :=
  hasBit state.hardirq.inFlight bit = true ∨
    (state.Unread ∧ hasBit state.pendingEvents bit = true)

/-- The bit has been acknowledged and not read since. -/
def outstanding (bit : Nat) : List IrqEvent → Bool :=
  Machine.raised (IrqEvent.acks bit) (IrqEvent.reads bit)

/-- The bit has been read and not acknowledged since. -/
def spent (bit : Nat) : List IrqEvent → Bool :=
  Machine.raised (IrqEvent.reads bit) (IrqEvent.acks bit)

/-- What the state says about the events so far. -/
structure Tracks (trace : List IrqEvent) (state : IrqState Hw) : Prop where
  running : state.thread = .running → state.wakePending = false ∧ state.hardirq ≠ .waking
  held : ∀ bit, outstanding bit trace = true → state.Holds bit
  notHeld : ∀ bit, spent bit trace = true → ¬ state.Holds bit
  fresh : ∀ before event after bit, trace = before ++ event :: after →
    event.reads bit = true → spent bit before = false

/-- A read or an acknowledgement updates both flags of a bit. -/
theorem outstanding_snoc (bit : Nat) (trace : List IrqEvent) (event : IrqEvent) :
    outstanding bit (trace ++ [event]) =
      (event.acks bit || (outstanding bit trace && !event.reads bit)) :=
  Machine.raised_snoc trace event

theorem spent_snoc (bit : Nat) (trace : List IrqEvent) (event : IrqEvent) :
    spent bit (trace ++ [event]) = (event.reads bit || (spent bit trace && !event.acks bit)) :=
  Machine.raised_snoc trace event

theorem IrqState.not_holds_of_quiescent {state : IrqState Hw} (quiet : state.Quiescent)
    (bit : Nat) : ¬ state.Holds bit := by
  simp [Holds, Unread, HardirqPc.inFlight, quiet.hardirq, quiet.notWoken, quiet.thread]

theorem Tracks.initial {state : IrqState Hw} (quiet : state.Quiescent) : Tracks [] state where
  running := by simp [quiet.thread]
  held := by simp [outstanding]
  notHeld := by simp [spent]
  fresh := by simp

/-- A step that reads nothing and acknowledges nothing keeps the record if it keeps what
is on its way. -/
theorem Tracks.silent {trace : List IrqEvent} {state next : IrqState Hw} {event : IrqEvent}
    (tracks : Tracks trace state) (noAck : ∀ bit, event.acks bit = false)
    (noRead : ∀ bit, event.reads bit = false)
    (running : next.thread = .running → next.wakePending = false ∧ next.hardirq ≠ .waking)
    (same : ∀ bit, next.Holds bit ↔ state.Holds bit) : Tracks (trace ++ [event]) next where
  running := running
  held := by
    intro bit raised
    rw [outstanding_snoc, noAck, noRead] at raised
    exact (same bit).mpr (tracks.held bit (by simpa using raised))
  notHeld := by
    intro bit raised holds
    rw [spent_snoc, noAck, noRead] at raised
    exact tracks.notHeld bit (by simpa using raised) ((same bit).mp holds)
  fresh := by
    intro before other after bit split reading
    obtain ⟨-, rfl, -⟩ | ⟨rest, -, rfl⟩ := Machine.split_snoc split
    · simp [noRead] at reading
    · exact tracks.fresh before other rest bit rfl reading

/-- The hard handler acknowledges: the bits of the mask are on their way. -/
theorem Tracks.acked {trace : List IrqEvent} {state : IrqState Hw} {events : UInt32}
    (tracks : Tracks trace state) (idle : state.hardirq = .idle) (hardware : Hw) :
    Tracks (trace ++ [.acked events])
      { state with hardware, hardirq := .storing events } where
  running := by
    intro running
    exact ⟨(tracks.running running).1, by simp⟩
  held := by
    intro bit raised
    rw [outstanding_snoc] at raised
    have heldBefore := tracks.held bit
    simp only [IrqState.Holds, IrqState.Unread, HardirqPc.inFlight, idle] at heldBefore ⊢
    simp only [IrqEvent.acks, IrqEvent.reads] at raised
    grind [hasBit_zero]
  notHeld := by
    intro bit raised
    rw [spent_snoc] at raised
    have notHeldBefore := tracks.notHeld bit
    simp only [IrqState.Holds, IrqState.Unread, HardirqPc.inFlight, idle] at notHeldBefore ⊢
    simp only [IrqEvent.acks, IrqEvent.reads] at raised
    grind [hasBit_zero]
  fresh := by
    intro before other after bit split reading
    obtain ⟨-, rfl, -⟩ | ⟨rest, -, rfl⟩ := Machine.split_snoc split
    · simp [IrqEvent.reads] at reading
    · exact tracks.fresh before other rest bit rfl reading

/-- The thread reads: no run of it is due, and the bits it has read were fresh. -/
theorem Tracks.read {trace : List IrqEvent} {state : IrqState Hw}
    (tracks : Tracks trace state) (running : state.thread = .running)
    (apart : state.pendingEvents &&& state.hardirq.inFlight = 0) :
    Tracks (trace ++ [.read state.pendingEvents]) { state with thread := .waiting } := by
  obtain ⟨notWoken, notWaking⟩ := tracks.running running
  have holds (bit : Nat) : IrqState.Holds { state with thread := .waiting } bit ↔
      hasBit state.hardirq.inFlight bit = true := by
    simp [IrqState.Holds, IrqState.Unread, notWoken, notWaking]
  have holdsBefore (bit : Nat) : state.Holds bit ↔
      hasBit state.hardirq.inFlight bit = true ∨ hasBit state.pendingEvents bit = true := by
    simp [IrqState.Holds, IrqState.Unread, running]
  have disjoint (bit : Nat) (reading : hasBit state.pendingEvents bit = true) :
      hasBit state.hardirq.inFlight bit = false := by
    have none := congrArg (hasBit · bit) apart
    simpa [reading] using none
  refine ⟨by simp, ?_, ?_, ?_⟩
  · intro bit raised
    rw [outstanding_snoc] at raised
    simp only [IrqEvent.acks, IrqEvent.reads, Bool.false_or, Bool.and_eq_true,
      Bool.not_eq_true'] at raised
    rcases (holdsBefore bit).mp (tracks.held bit raised.1) with inFlight | stored
    · exact (holds bit).mpr inFlight
    · simp [stored] at raised
  · intro bit raised held
    have inFlight := (holds bit).mp held
    rw [spent_snoc] at raised
    simp only [IrqEvent.acks, IrqEvent.reads, Bool.not_false, Bool.and_true,
      Bool.or_eq_true] at raised
    rcases raised with reading | spentBefore
    · simp [disjoint bit reading] at inFlight
    · exact tracks.notHeld bit spentBefore ((holdsBefore bit).mpr (Or.inl inFlight))
  · intro before other after bit split reading
    obtain ⟨rfl, rfl, -⟩ | ⟨rest, -, rfl⟩ := Machine.split_snoc split
    · have held := (holdsBefore bit).mpr (Or.inr reading)
      cases spentBefore : spent bit before with
      | false => rfl
      | true => exact absurd held (tracks.notHeld bit spentBefore)
    · exact tracks.fresh before other rest bit rfl reading

/-- Every step that keeps events apart keeps the record. -/
theorem Tracks.step {soc : SocData Hw} {trace : List IrqEvent} {state next : IrqState Hw}
    {event : IrqEvent} (tracks : Tracks trace state) (move : IrqMove soc state event next)
    (keeps : KeepsEvents state event) : Tracks (trace ++ [event]) next := by
  cases move with
  | hardware => exact tracks.silent (fun _ => rfl) (fun _ => rfl) tracks.running fun _ => Iff.rfl
  | notOurs => exact tracks.silent (fun _ => rfl) (fun _ => rfl) tracks.running fun _ => Iff.rfl
  | acked hardware events idle => exact tracks.acked idle hardware
  | stored events storing =>
      obtain ⟨waiting, within⟩ := keeps
      refine tracks.silent (fun _ => rfl) (fun _ => rfl) (by simp [waiting]) ?_
      intro bit
      have bits : state.wakePending = true → hasBit state.pendingEvents bit = true →
          hasBit events bit = true := by
        intro woken stored
        have same := congrArg (hasBit · bit) (within woken)
        simpa [stored] using same
      simp only [IrqState.Holds, IrqState.Unread, HardirqPc.inFlight, storing, waiting]
      grind [hasBit_zero]
  | woken waking =>
      refine tracks.silent (fun _ => rfl) (fun _ => rfl) ?_ ?_
      · intro running
        exact absurd waking (tracks.running running).2
      · intro bit
        simp [IrqState.Holds, IrqState.Unread, HardirqPc.inFlight, waking]
  | started waiting woken =>
      refine tracks.silent (fun _ => rfl) (fun _ => rfl) (fun _ => ⟨rfl, keeps⟩) ?_
      intro bit
      simp [IrqState.Holds, IrqState.Unread, woken]
  | read running => exact tracks.read running keeps

/-- The record at the end of a run that keeps events apart. -/
theorem Tracks.of_stepsWhere {soc : SocData Hw} {trace : List IrqEvent}
    {start finish : IrqState Hw} (initially : start.Quiescent)
    (steps : (irqMachine soc).StepsWhere KeepsEvents start trace finish) :
    Tracks trace finish := by
  induction steps with
  | refl => exact Tracks.initial initially
  | snoc _ keeps taken inductionHypothesis =>
      exact inductionHypothesis.step (irqMove_of_step taken) keeps

/-- In every run whose steps keep events apart, whatever `irq_ack` returns, each
acknowledged event is delivered once whenever the handlers have come to rest. -/
theorem deliveredOnce_of_keepsEvents (soc : SocData Hw) {trace : List IrqEvent}
    {start finish : IrqState Hw} (initially : (irqMachine soc).Initial start)
    (steps : (irqMachine soc).StepsWhere KeepsEvents start trace finish)
    (quiet : finish.Quiescent) : DeliveredOnce trace := by
  obtain ⟨notWoken, idle, waiting⟩ := initially
  have tracks := Tracks.of_stepsWhere ⟨idle, notWoken, waiting⟩ steps
  constructor
  · rintro before acked after bit rfl acks
    have delivered : outstanding bit (before ++ acked :: after) = false := by
      cases raised : outstanding bit (before ++ acked :: after) with
      | false => rfl
      | true => exact absurd (tracks.held bit raised) (IrqState.not_holds_of_quiescent quiet bit)
    exact Machine.exists_clears_of_raised acks delivered
  · rintro before first between second after bit rfl firstReads secondReads
    have fresh := tracks.fresh _ second after bit rfl secondReads
    exact Machine.exists_clears_of_raised firstReads fresh

/-! ## An interrupt register -/

/-- A SoC with one register of events that `irq_ack` reads and clears. -/
def registerSoc : SocData UInt32 where
  ops := some { irqAck := some fun register => (register, 0) }

/-- The handlers at rest. -/
def atRest (pendingEvents : UInt32) : IrqState UInt32 where
  hardware := 0
  pendingEvents := pendingEvents
  wakePending := false
  hardirq := .idle
  thread := .waiting

theorem atRest_quiescent (pendingEvents : UInt32) : (atRest pendingEvents).Quiescent :=
  ⟨rfl, rfl, rfl⟩

theorem atRest_initial (pendingEvents : UInt32) :
    (irqMachine registerSoc).Initial (atRest pendingEvents) :=
  ⟨rfl, rfl, rfl⟩

/-- The hard handler runs a second time over a wake-up that has not been served, with
more events, and acknowledges others while the thread runs. -/
def keptSchedule : List (IrqLabel UInt32) :=
  [.hardware 1, .hardirq, .hardirq, .hardirq, .hardware 3, .hardirq, .hardirq, .hardirq,
    .thread, .hardware 4, .hardirq, .thread, .hardirq, .hardirq, .thread, .thread]

def keptTrace : List IrqEvent :=
  [.hardware, .acked 1, .stored 1, .woken, .hardware, .acked 3, .stored 3, .woken,
    .started, .hardware, .acked 4, .read 3, .stored 4, .woken, .started, .read 4]

theorem deliveredOnce_kept : DeliveredOnce keptTrace := by
  have executed : (irqMachine registerSoc).execute keptSchedule (atRest 0) =
      some (keptTrace, atRest 4) := rfl
  have passed : (irqMachine registerSoc).passes
      (fun state event => decide (KeepsEvents state event)) keptSchedule (atRest 0) = true := by
    decide
  have steps := (Machine.stepsWhere_of_passes executed passed).mono fun _ _ => of_decide_eq_true
  exact deliveredOnce_of_keepsEvents registerSoc (atRest_initial 0) steps (atRest_quiescent 4)

/-- Two events arrive before the thread has run. -/
def overwrittenSchedule : List (IrqLabel UInt32) :=
  [.hardware 1, .hardirq, .hardirq, .hardirq, .hardware 2, .hardirq, .hardirq, .hardirq,
    .thread, .thread]

def overwrittenTrace : List IrqEvent :=
  [.hardware, .acked 1, .stored 1, .woken, .hardware, .acked 2, .stored 2, .woken,
    .started, .read 2]

/-- An event arrives again before the thread has run, and the thread runs between the
store and the wake-up. -/
def repeatedSchedule : List (IrqLabel UInt32) :=
  [.hardware 1, .hardirq, .hardirq, .hardirq, .hardware 1, .hardirq, .hardirq, .thread,
    .thread, .hardirq, .thread, .thread]

def repeatedTrace : List IrqEvent :=
  [.hardware, .acked 1, .stored 1, .woken, .hardware, .acked 1, .stored 1, .started,
    .read 1, .woken, .started, .read 1]

/-- The second store overwrites the first event, which no run of the thread reads; and
one acknowledged event is read by two runs. -/
theorem acknowledged_events_lost_and_repeated :
    ((irqMachine registerSoc).Run overwrittenTrace (atRest 2) ∧
        (atRest 2).Quiescent ∧ ¬ DeliveredOnce overwrittenTrace) ∧
      (irqMachine registerSoc).Run repeatedTrace (atRest 1) ∧
        (atRest 1).Quiescent ∧ ¬ DeliveredOnce repeatedTrace := by
  have overwritten : (irqMachine registerSoc).execute overwrittenSchedule (atRest 0) =
      some (overwrittenTrace, atRest 2) := rfl
  have repeated : (irqMachine registerSoc).execute repeatedSchedule (atRest 0) =
      some (repeatedTrace, atRest 1) := rfl
  refine ⟨⟨⟨_, atRest_initial 0, Machine.steps_of_execute overwritten⟩, atRest_quiescent 2, ?_⟩,
    ⟨_, atRest_initial 0, Machine.steps_of_execute repeated⟩, atRest_quiescent 1, ?_⟩
  · intro delivered
    have unread : ¬ ∃ later ∈ overwrittenTrace.drop 2, later.reads 0 = true := by decide
    exact unread (delivered.seen [.hardware] (.acked 1) _ 0 rfl rfl)
  · intro delivered
    have unacked : ¬ ∃ acked ∈ [IrqEvent.woken, .started], acked.acks 0 = true := by decide
    exact unacked (delivered.once (repeatedTrace.take 8) (.read 1) _ (.read 1) [] 0 rfl rfl rfl)

end CortexForge
