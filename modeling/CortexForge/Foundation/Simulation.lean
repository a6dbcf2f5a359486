import Mathlib.Data.List.Forall2
import CortexForge.Foundation.Machine

/-!
Contract: two runs of one machine, step against block.

Every step of the first run is answered by a block of labels that the second run
executes; a block may be empty. The two states are related before the first step and
after every block, so that what the relation says holds at all corresponding points.

Two machines are compared in the same way: a step of the first is answered by a block of
steps of the second.

Owns: paired runs, the two runs they are made of, the simulation rule, and the rule for two
machines.

Does not own: how a block is chosen for a step.
-/

namespace CortexForge.Foundation

universe u v w

namespace Machine

variable {State : Type u} {Label : Type v} {Event : Type w}
variable {machine : Machine State Label Event}

theorem execute_single {label : Label} {state next : State} {event : Event}
    (taken : machine.step label state = some (event, next)) :
    machine.execute [label] state = some ([event], next) := by
  simp only [execute, taken]

theorem execute_cons {label : Label} {labels : List Label} {state next finish : State}
    {event : Event} {events : List Event}
    (taken : machine.step label state = some (event, next))
    (rest : machine.execute labels next = some (events, finish)) :
    machine.execute (label :: labels) state = some (event :: events, finish) := by
  simp only [execute, taken, rest]

variable (machine) in
/-- Two runs side by side. `Answers` says which blocks may answer a step, by the state
it is taken in, and `Related` is what holds between the runs at corresponding points. -/
inductive Paired (Answers : State → Label → List Label → Prop)
    (Related : List Event → State → List Event → State → Prop) (start partner : State) :
    List Event → State → List Event → State → Prop
  | refl (related : Related [] start [] partner) :
      Paired Answers Related start partner [] start [] partner
  | snoc {trace answered events : List Event} {state other next reached : State} {event : Event}
      {label : Label} {block : List Label}
      (paired : Paired Answers Related start partner trace state answered other)
      (taken : machine.step label state = some (event, next))
      (answers : Answers state label block)
      (executed : machine.execute block other = some (events, reached))
      (related : Related (trace ++ [event]) next (answered ++ events) reached) :
      Paired Answers Related start partner (trace ++ [event]) next (answered ++ events) reached

section Paired

variable {Answers : State → Label → List Label → Prop}
  {Related : List Event → State → List Event → State → Prop} {start partner state other : State}
  {trace answered : List Event}

/-- The runs are related at their ends. -/
theorem Paired.related
    (paired : machine.Paired Answers Related start partner trace state answered other) :
    Related trace state answered other := by
  cases paired with
  | refl related => exact related
  | snoc _ _ _ _ related => exact related

/-- The answers form a run of the machine. -/
theorem Paired.steps
    (paired : machine.Paired Answers Related start partner trace state answered other) :
    machine.Steps partner answered other := by
  induction paired with
  | refl => exact Steps.refl partner
  | snoc _ _ _ executed _ inductionHypothesis =>
      exact inductionHypothesis.trans (steps_of_execute executed)

/-- What follows from the relation holds at all corresponding points. -/
theorem Paired.mono {Weaker : List Event → State → List Event → State → Prop}
    (weaker : ∀ trace state answered other, Related trace state answered other →
      Weaker trace state answered other)
    (paired : machine.Paired Answers Related start partner trace state answered other) :
    machine.Paired Answers Weaker start partner trace state answered other := by
  induction paired with
  | refl related => exact .refl (weaker _ _ _ _ related)
  | snoc _ taken answers executed related inductionHypothesis =>
      exact inductionHypothesis.snoc taken answers executed (weaker _ _ _ _ related)

/-- The simulation rule, for the runs whose history is `Allowed`. -/
theorem Steps.paired {Allowed : List Event → Prop}
    (initially : Related [] start [] partner)
    (allowedBefore : ∀ trace state label event next, machine.Steps start trace state →
      machine.step label state = some (event, next) → Allowed (trace ++ [event]) →
      Allowed trace)
    (answer : ∀ trace state label event next answered other, machine.Steps start trace state →
      machine.Steps partner answered other → Related trace state answered other →
      machine.step label state = some (event, next) → Allowed (trace ++ [event]) →
      ∃ block events reached, Answers state label block ∧
        machine.execute block other = some (events, reached) ∧
        Related (trace ++ [event]) next (answered ++ events) reached)
    (steps : machine.Steps start trace state) (allowed : Allowed trace) :
    ∃ answered other,
      machine.Paired Answers Related start partner trace state answered other := by
  induction steps with
  | refl => exact ⟨[], partner, .refl initially⟩
  | snoc steps _ taken inductionHypothesis =>
      obtain ⟨answered, other, paired⟩ :=
        inductionHypothesis (allowedBefore _ _ _ _ _ steps taken allowed)
      obtain ⟨block, events, reached, answers, executed, related⟩ :=
        answer _ _ _ _ _ answered other steps paired.steps paired.related taken allowed
      exact ⟨answered ++ events, reached, paired.snoc taken answers executed related⟩

end Paired

/-! ## Two machines -/

variable (machine) in
/-- Consecutive blocks of steps, each with the state it ends in. -/
inductive Blocks (start : State) : List (List Event × State) → State → Prop
  | refl : Blocks start [] start
  | snoc {blocks : List (List Event × State)} {middle finish : State} {block : List Event}
      (earlier : Blocks start blocks middle) (steps : machine.Steps middle block finish) :
      Blocks start (blocks ++ [(block, finish)]) finish

/-- The blocks together are a run. -/
theorem Blocks.steps {start finish : State} {blocks : List (List Event × State)}
    (chained : machine.Blocks start blocks finish) :
    machine.Steps start (blocks.map Prod.fst).flatten finish := by
  induction chained with
  | refl => exact Steps.refl start
  | snoc _ steps inductionHypothesis =>
      rw [List.map_append, List.flatten_append]
      simpa using inductionHypothesis.trans steps

section Implements

variable {Abstract : Type u} {Request : Type v} {Outcome : Type w}
  {abstract : Machine Abstract Request Outcome}

/-- The simulation rule for two machines: every run of the first is answered by a run of the
second, one block for each step. -/
theorem Run.answered (Related : Abstract → State → Prop)
    (Answers : Outcome → List Event × State → Prop)
    (initially : ∀ state, abstract.Initial state →
      ∃ partner, machine.Initial partner ∧ Related state partner)
    (answer : ∀ state request outcome next partner,
      abstract.step request state = some (outcome, next) → Related state partner →
      ∃ block reached, machine.Steps partner block reached ∧ Related next reached ∧
        Answers outcome (block, reached))
    {history : List Outcome} {state : Abstract} (run : abstract.Run history state) :
    ∃ start blocks reached, machine.Initial start ∧ machine.Blocks start blocks reached ∧
      Related state reached ∧ List.Forall₂ Answers history blocks := by
  obtain ⟨origin, isInitial, steps⟩ := run
  obtain ⟨start, startInitial, related⟩ := initially origin isInitial
  suffices ∃ blocks reached, machine.Blocks start blocks reached ∧ Related state reached ∧
      List.Forall₂ Answers history blocks by
    obtain ⟨blocks, reached, rest⟩ := this
    exact ⟨start, blocks, reached, startInitial, rest⟩
  induction steps with
  | refl => exact ⟨[], start, .refl, related, .nil⟩
  | snoc steps _ taken inductionHypothesis =>
      obtain ⟨blocks, middle, chained, relatedMiddle, answered⟩ := inductionHypothesis
      obtain ⟨block, reached, blockSteps, relatedNext, answers⟩ :=
        answer _ _ _ _ _ taken relatedMiddle
      exact ⟨_, reached, chained.snoc blockSteps, relatedNext,
        List.rel_append answered (.cons answers .nil)⟩

end Implements

end Machine

end CortexForge.Foundation
