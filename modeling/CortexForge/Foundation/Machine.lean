import Mathlib.Data.List.Basic
import Mathlib.Data.List.Induction

/-!
Contract: labelled machines, their runs, and the invariant rules over runs.

A machine takes one atomic step per label. The label resolves every choice the
environment can make, so the step is a partial function: `none` says that the
label is not enabled. Each step emits one event, and a run keeps the events in
order, so that statements about history need no extra state.

Owns: finite runs from a state and from an initial state, runs whose every
step satisfies a side condition, their composition, the invariant rules, the
growth of a history, flags that a history raises and clears, notes taken along
a run, and execution of a list of labels.

Does not own: fairness, infinite behaviours, or any particular machine.
-/

namespace CortexForge.Foundation

universe u v w

/-- A machine with deterministic labelled steps. -/
structure Machine (State : Type u) (Label : Type v) (Event : Type w) where
  Initial : State → Prop
  step : Label → State → Option (Event × State)

namespace Machine

variable {State : Type u} {Label : Type v} {Event : Type w}
variable (machine : Machine State Label Event)

/-- Finite runs in which every step satisfies `Good` of the state before it and
of the event it emits. -/
inductive StepsWhere (Good : State → Event → Prop) :
    State → List Event → State → Prop
  | refl (state : State) : StepsWhere Good state [] state
  | snoc {start middle finish : State} {events : List Event} {event : Event}
      {label : Label} (steps : StepsWhere Good start events middle)
      (good : Good middle event)
      (taken : machine.step label middle = some (event, finish)) :
      StepsWhere Good start (events ++ [event]) finish

/-- Finite runs between two states, with the events they emit. -/
def Steps : State → List Event → State → Prop :=
  machine.StepsWhere fun _ _ => True

/-- Runs from an initial state. -/
def Run (trace : List Event) (state : State) : Prop :=
  ∃ start, machine.Initial start ∧ machine.Steps start trace state

variable {machine}

theorem Steps.refl (state : State) : machine.Steps state [] state :=
  StepsWhere.refl state

theorem Steps.snoc {start middle finish : State} {events : List Event}
    {event : Event} {label : Label} (steps : machine.Steps start events middle)
    (taken : machine.step label middle = some (event, finish)) :
    machine.Steps start (events ++ [event]) finish :=
  StepsWhere.snoc steps trivial taken

theorem Steps.single {before after : State} {event : Event} (label : Label)
    (taken : machine.step label before = some (event, after)) :
    machine.Steps before [event] after :=
  Steps.snoc (Steps.refl before) taken

/-- A run of no steps ends where it starts. -/
theorem Steps.eq_of_nil {start finish : State} (steps : machine.Steps start [] finish) :
    finish = start := by
  generalize isNil : ([] : List Event) = events at steps
  cases steps with
  | refl => rfl
  | snoc => simp at isNil

/-- A run of one step is that step. -/
theorem Steps.step_of_single {start finish : State} {event : Event}
    (steps : machine.Steps start [event] finish) :
    ∃ label, machine.step label start = some (event, finish) := by
  generalize isSingle : [event] = events at steps
  cases steps with
  | refl => cases isSingle
  | @snoc middle _ earlier last label before _ taken =>
      have same : [] ++ [event] = earlier ++ [last] := isSingle
      obtain ⟨rfl, isLast⟩ := List.append_inj' same rfl
      cases isLast
      rw [Steps.eq_of_nil before] at taken
      exact ⟨label, taken⟩

/-- A run may be held to a weaker side condition. -/
theorem StepsWhere.mono {Good Weaker : State → Event → Prop} {start finish : State}
    {events : List Event} (weaker : ∀ state event, Good state event → Weaker state event)
    (guarded : machine.StepsWhere Good start events finish) :
    machine.StepsWhere Weaker start events finish := by
  induction guarded with
  | refl => exact .refl start
  | snoc _ good taken inductionHypothesis =>
      exact inductionHypothesis.snoc (weaker _ _ good) taken

/-- Forgetting the side condition leaves an ordinary run. -/
theorem StepsWhere.steps {Good : State → Event → Prop} {start finish : State}
    {events : List Event} (guarded : machine.StepsWhere Good start events finish) :
    machine.Steps start events finish :=
  guarded.mono fun _ _ _ => trivial

theorem StepsWhere.trans {Good : State → Event → Prop} {first second third : State}
    {before after : List Event} (left : machine.StepsWhere Good first before second)
    (right : machine.StepsWhere Good second after third) :
    machine.StepsWhere Good first (before ++ after) third := by
  induction right with
  | refl => simpa using left
  | snoc _ good taken inductionHypothesis =>
      rw [← List.append_assoc]
      exact inductionHypothesis.snoc good taken

theorem Steps.trans {first second third : State} {before after : List Event}
    (left : machine.Steps first before second) (right : machine.Steps second after third) :
    machine.Steps first (before ++ after) third :=
  StepsWhere.trans left right

/-- A run extends by any steps taken from its last state. -/
theorem Run.extend {trace more : List Event} {state finish : State}
    (run : machine.Run trace state) (steps : machine.Steps state more finish) :
    machine.Run (trace ++ more) finish := by
  obtain ⟨start, initial, before⟩ := run
  exact ⟨start, initial, before.trans steps⟩

variable (machine) in
/-- The states a run passes through. -/
def Through (start : State) (events : List Event) (finish middle : State) : Prop :=
  ∃ before after, events = before ++ after ∧ machine.Steps start before middle ∧
    machine.Steps middle after finish

theorem Steps.through_last {start finish : State} {events : List Event}
    (steps : machine.Steps start events finish) :
    machine.Through start events finish finish :=
  ⟨events, [], by simp, steps, Steps.refl finish⟩

theorem Through.snoc {start middle last finish : State} {events : List Event} {event : Event}
    {label : Label} (through : machine.Through start events last middle)
    (taken : machine.step label last = some (event, finish)) :
    machine.Through start (events ++ [event]) finish middle := by
  obtain ⟨before, after, rfl, left, right⟩ := through
  exact ⟨before, after ++ [event], List.append_assoc _ _ _, left, right.snoc taken⟩

/-- The invariant rule over whole runs. `Inv` may speak about the history, and
the step obligation may use that the state is reached. -/
theorem Run.invariant (Inv : List Event → State → Prop)
    (initially : ∀ state, machine.Initial state → Inv [] state)
    (preserved : ∀ trace state label event next, machine.Run trace state →
      Inv trace state → machine.step label state = some (event, next) →
      Inv (trace ++ [event]) next)
    {trace : List Event} {state : State} (run : machine.Run trace state) :
    Inv trace state := by
  obtain ⟨start, initial, steps⟩ := run
  induction steps with
  | refl => exact initially start initial
  | snoc steps _ taken inductionHypothesis =>
      exact preserved _ _ _ _ _ ⟨start, initial, steps⟩ inductionHypothesis taken

/-- The invariant rule over the guarded continuations of one run, for invariants
that speak about what has happened since. -/
theorem StepsWhere.invariant_since {Good : State → Event → Prop}
    (Inv : List Event → State → Prop) {trace : List Event} {start : State}
    (run : machine.Run trace start) (initially : Inv [] start)
    (preserved : ∀ since state label event next, machine.Run (trace ++ since) state →
      Inv since state → Good state event →
      machine.step label state = some (event, next) → Inv (since ++ [event]) next)
    {events : List Event} {finish : State}
    (guarded : machine.StepsWhere Good start events finish) : Inv events finish := by
  induction guarded with
  | refl => exact initially
  | snoc steps good taken inductionHypothesis =>
      exact preserved _ _ _ _ _ (run.extend steps.steps) inductionHypothesis good taken

/-- The same rule for invariants that speak about the whole history. -/
theorem StepsWhere.invariant {Good : State → Event → Prop}
    (Inv : List Event → State → Prop) {trace : List Event} {start : State}
    (run : machine.Run trace start) (initially : Inv trace start)
    (preserved : ∀ history state label event next, machine.Run history state →
      Inv history state → Good state event →
      machine.step label state = some (event, next) → Inv (history ++ [event]) next)
    {events : List Event} {finish : State}
    (guarded : machine.StepsWhere Good start events finish) :
    Inv (trace ++ events) finish := by
  refine guarded.invariant_since (fun since state => Inv (trace ++ since) state) run
    (by simpa using initially) ?_
  intro since state label event next reached held good taken
  rw [← List.append_assoc]
  exact preserved _ _ _ _ _ reached held good taken

/-! ## Histories -/

/-- What one event adds to the selected part of a history. -/
theorem filterMap_snoc {Item : Type v} (select : Event → Option Item) (trace : List Event)
    (event : Event) :
    (trace ++ [event]).filterMap select = trace.filterMap select ++ (select event).toList := by
  rw [List.filterMap_append]
  cases selected : select event <;> simp [selected]

/-- Where one event of a longer history can be. -/
theorem split_snoc {trace before after : List Event} {last event : Event}
    (split : trace ++ [last] = before ++ event :: after) :
    (before = trace ∧ event = last ∧ after = []) ∨
      ∃ rest, after = rest ++ [last] ∧ trace = before ++ event :: rest := by
  rcases after.eq_nil_or_concat with rfl | ⟨rest, final, rfl⟩
  · obtain ⟨rfl, same⟩ := List.append_inj' split rfl
    exact Or.inl ⟨rfl, by simpa using same.symm, rfl⟩
  · rw [List.concat_eq_append, ← List.cons_append, ← List.append_assoc] at split
    obtain ⟨rfl, same⟩ := List.append_inj' split rfl
    exact Or.inr ⟨rest, by simpa using same.symm, rfl⟩

/-- Whether the history has raised a flag and not cleared it since. An event that
does both leaves it raised. -/
def raised (raises clears : Event → Bool) (trace : List Event) : Bool :=
  trace.foldl (fun up event => raises event || (up && !clears event)) false

section Raised

variable {raises clears : Event → Bool}

@[simp] theorem raised_nil : raised raises clears [] = false := rfl

theorem raised_snoc (trace : List Event) (event : Event) :
    raised raises clears (trace ++ [event]) =
      (raises event || (raised raises clears trace && !clears event)) := by
  simp [raised, List.foldl_append]

/-- A flag that was raised and is down has been cleared since. -/
theorem exists_clears_of_raised {before after : List Event} {event : Event}
    (raising : raises event = true)
    (lowered : raised raises clears (before ++ event :: after) = false) :
    ∃ later ∈ after, clears later = true := by
  induction after using List.reverseRecOn with
  | nil => simp [raised_snoc, raising] at lowered
  | append_singleton after last inductionHypothesis =>
      rw [← List.cons_append, ← List.append_assoc, raised_snoc, Bool.or_eq_false_iff] at lowered
      cases stillUp : raised raises clears (before ++ event :: after) with
      | false =>
          obtain ⟨later, member, clearing⟩ := inductionHypothesis stillUp
          exact ⟨later, List.mem_append_left _ member, clearing⟩
      | true =>
          refine ⟨last, by simp, ?_⟩
          simpa [stillUp] using lowered.2

end Raised

/-! ## Notes -/

variable (machine) in
/-- Runs in which every step is `Good`, with what `note` takes down of the state
before each step and of the event it emits. -/
inductive StepsNoting {Item : Type v} (Good : State → Event → Prop)
    (note : State → Event → Option Item) : State → List Event → List Item → State → Prop
  | refl (state : State) : StepsNoting Good note state [] [] state
  | snoc {start middle finish : State} {events : List Event} {notes : List Item}
      {event : Event} {label : Label} (steps : StepsNoting Good note start events notes middle)
      (good : Good middle event)
      (taken : machine.step label middle = some (event, finish)) :
      StepsNoting Good note start (events ++ [event])
        (notes ++ (note middle event).toList) finish

section Notes

variable {Item : Type v} {Good : State → Event → Prop} {note : State → Event → Option Item}
  {start finish : State} {events : List Event} {notes : List Item}

theorem StepsNoting.stepsWhere
    (noted : machine.StepsNoting Good note start events notes finish) :
    machine.StepsWhere Good start events finish := by
  induction noted with
  | refl => exact .refl start
  | snoc _ good taken inductionHypothesis => exact inductionHypothesis.snoc good taken

/-- Notes can be taken of any run. -/
theorem StepsWhere.noting (note : State → Event → Option Item)
    (guarded : machine.StepsWhere Good start events finish) :
    ∃ notes, machine.StepsNoting Good note start events notes finish := by
  induction guarded with
  | refl => exact ⟨[], .refl start⟩
  | snoc _ good taken inductionHypothesis =>
      obtain ⟨notes, noted⟩ := inductionHypothesis
      exact ⟨_, noted.snoc good taken⟩

/-- The invariant rule over noted continuations of one run, for invariants that speak
about the whole history and about the notes taken since. -/
theorem StepsNoting.invariant (Inv : List Event → List Item → State → Prop)
    {trace : List Event} (run : machine.Run trace start) (initially : Inv trace [] start)
    (preserved : ∀ history notes state label event next, machine.Run history state →
      Inv history notes state → Good state event →
      machine.step label state = some (event, next) →
      Inv (history ++ [event]) (notes ++ (note state event).toList) next)
    (noted : machine.StepsNoting Good note start events notes finish) :
    Inv (trace ++ events) notes finish := by
  induction noted with
  | refl => simpa using initially
  | snoc steps good taken inductionHypothesis =>
      rw [← List.append_assoc]
      exact preserved _ _ _ _ _ _ (run.extend steps.stepsWhere.steps) inductionHypothesis good
        taken

theorem StepsNoting.trans {middle : State} {more : List Event} {others : List Item}
    (left : machine.StepsNoting Good note start events notes middle)
    (right : machine.StepsNoting Good note middle more others finish) :
    machine.StepsNoting Good note start (events ++ more) (notes ++ others) finish := by
  induction right with
  | refl => simpa using left
  | snoc _ good taken inductionHypothesis =>
      rw [← List.append_assoc, ← List.append_assoc]
      exact inductionHypothesis.snoc good taken

/-- A noted run may be held to a weaker side condition. -/
theorem StepsNoting.mono {Weaker : State → Event → Prop}
    (weaker : ∀ state event, Good state event → Weaker state event)
    (noted : machine.StepsNoting Good note start events notes finish) :
    machine.StepsNoting Weaker note start events notes finish := by
  induction noted with
  | refl => exact .refl start
  | snoc _ good taken inductionHypothesis =>
      exact inductionHypothesis.snoc (weaker _ _ good) taken

/-- Where no `Good` step is worth a note, none is taken. -/
theorem StepsNoting.notes_eq_nil
    (silent : ∀ state event, Good state event → note state event = none)
    (noted : machine.StepsNoting Good note start events notes finish) : notes = [] := by
  induction noted with
  | refl => rfl
  | snoc _ good _ inductionHypothesis =>
      rw [inductionHypothesis, silent _ _ good]
      rfl

end Notes

/-! ## Execution -/

variable (machine) in
/-- Execute a list of labels, collecting the events. -/
def execute : List Label → State → Option (List Event × State)
  | [], state => some ([], state)
  | label :: labels, state =>
      match machine.step label state with
      | none => none
      | some (event, next) =>
          match execute labels next with
          | none => none
          | some (events, finish) => some (event :: events, finish)

variable (machine) in
/-- Whether every step of a schedule passes a test. -/
def passes (test : State → Event → Bool) : List Label → State → Bool
  | [], _ => true
  | label :: labels, state =>
      match machine.step label state with
      | none => false
      | some (event, next) => test state event && passes test labels next

variable (machine) in
/-- What `note` takes down of a schedule. -/
def notesOf {Item : Type v} (note : State → Event → Option Item) : List Label → State → List Item
  | [], _ => []
  | label :: labels, state =>
      match machine.step label state with
      | none => []
      | some (event, next) => (note state event).toList ++ notesOf note labels next

/-- A successful execution is a guarded run with its notes, if what is known about the
labels left and the state carries the side condition along. -/
theorem stepsNoting_of_execute {Item : Type v} {Good : State → Event → Prop}
    (note : State → Event → Option Item) (Safe : List Label → State → Prop)
    (safe : ∀ label labels state event next, Safe (label :: labels) state →
      machine.step label state = some (event, next) → Good state event ∧ Safe labels next)
    {labels : List Label} {start finish : State} {events : List Event}
    (executed : machine.execute labels start = some (events, finish))
    (safely : Safe labels start) :
    machine.StepsNoting Good note start events (machine.notesOf note labels start) finish := by
  induction labels generalizing start events with
  | nil =>
      simp only [execute, Option.some.injEq, Prod.mk.injEq] at executed
      obtain ⟨rfl, rfl⟩ := executed
      exact .refl _
  | cons label labels inductionHypothesis =>
      simp only [execute] at executed
      split at executed
      · contradiction
      next event next taken =>
        split at executed
        · contradiction
        next tail last rest =>
          simp only [Option.some.injEq, Prod.mk.injEq] at executed
          obtain ⟨rfl, rfl⟩ := executed
          obtain ⟨good, safely'⟩ := safe label labels start event next safely taken
          have first : machine.StepsNoting Good note start [event] (note start event).toList
              next := StepsNoting.snoc (.refl start) good taken
          simp only [notesOf, taken]
          exact first.trans (inductionHypothesis rest safely')

/-- A successful execution is a guarded run, if what is known about the labels
left and the state carries the side condition along. -/
theorem stepsWhere_of_execute {Good : State → Event → Prop}
    (Safe : List Label → State → Prop)
    (safe : ∀ label labels state event next, Safe (label :: labels) state →
      machine.step label state = some (event, next) → Good state event ∧ Safe labels next)
    {labels : List Label} {start finish : State} {events : List Event}
    (executed : machine.execute labels start = some (events, finish))
    (safely : Safe labels start) : machine.StepsWhere Good start events finish :=
  (stepsNoting_of_execute (fun _ _ => (none : Option Label)) Safe safe executed safely).stepsWhere

/-- A successful execution whose steps pass a test is a guarded run with its notes. -/
theorem stepsNoting_of_passes {Item : Type v} (note : State → Event → Option Item)
    {test : State → Event → Bool} {labels : List Label} {start finish : State}
    {events : List Event} (executed : machine.execute labels start = some (events, finish))
    (passed : machine.passes test labels start = true) :
    machine.StepsNoting (fun state event => test state event = true) note start events
      (machine.notesOf note labels start) finish := by
  refine stepsNoting_of_execute note
    (fun labels state => machine.passes test labels state = true) ?_ executed passed
  intro label labels state event next passed taken
  simpa only [passes, taken, Bool.and_eq_true] using passed

/-- A successful execution whose steps pass a test is a guarded run. -/
theorem stepsWhere_of_passes {test : State → Event → Bool} {labels : List Label}
    {start finish : State} {events : List Event}
    (executed : machine.execute labels start = some (events, finish))
    (passed : machine.passes test labels start = true) :
    machine.StepsWhere (fun state event => test state event = true) start events finish :=
  (stepsNoting_of_passes (fun _ _ => (none : Option Label)) executed passed).stepsWhere

/-- A successful execution is a run. -/
theorem steps_of_execute {labels : List Label} {start finish : State} {events : List Event}
    (executed : machine.execute labels start = some (events, finish)) :
    machine.Steps start events finish :=
  stepsWhere_of_execute (fun _ _ => True) (fun _ _ _ _ _ _ _ => ⟨trivial, trivial⟩) executed
    trivial

end Machine

end CortexForge.Foundation
