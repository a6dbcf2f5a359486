import CortexForge.Foundation.Machine

/-!
Contract: bounded progress along runs.

An actor that works towards a goal owes a number of steps that no step of anybody raises and
that every step of its own lowers. Then it takes at most as many steps as it owes at the
start, whatever the others do in between. No fairness is assumed: the rule bounds the steps
the actor takes, and says nothing about a run in which it takes none.

Owns: the rule for steps that are noted along a run, and the rule for the steps of one actor.

Does not own: that the actor can take its next step, which is a fact about one state.
-/

namespace CortexForge.Foundation.Machine

universe u v w

variable {State : Type u} {Label : Type v} {Event : Type w} {Item : Type v}
variable {machine : Machine State Label Event} {Good : State → Event → Prop}
  {start finish : State} {trace events : List Event}

/-- A run whose events all meet a condition is a run under it. -/
theorem StepsNoting.restrict {note : State → Event → Option Item} {notes : List Item}
    (Meets : Event → Prop) (noted : machine.StepsNoting Good note start events notes finish)
    (met : ∀ event ∈ events, Meets event) :
    machine.StepsNoting (fun state event => Good state event ∧ Meets event) note start events
      notes finish := by
  induction noted with
  | refl => exact .refl start
  | snoc _ good taken inductionHypothesis =>
      refine (inductionHypothesis fun event member => ?_).snoc ⟨good, ?_⟩ taken
      · exact met event (List.mem_append_left _ member)
      · exact met _ (List.mem_append_right _ (List.mem_singleton_self _))

theorem StepsWhere.restrict (Meets : Event → Prop)
    (guarded : machine.StepsWhere Good start events finish)
    (met : ∀ event ∈ events, Meets event) :
    machine.StepsWhere (fun state event => Good state event ∧ Meets event) start events finish := by
  obtain ⟨notes, noted⟩ := guarded.noting fun _ _ => (none : Option Label)
  exact (noted.restrict Meets met).stepsWhere

/-- Notes are paid for by what is owed: `Owes left state` says that at most `left` of the
noted steps are to come, and every noted step is one of them. -/
theorem StepsNoting.spends {note : State → Event → Option Item} {notes : List Item}
    (Owes : Nat → State → Prop)
    (lowers : ∀ history left state label event next, machine.Run history state →
      Owes left state → Good state event → machine.step label state = some (event, next) →
      ∃ after, Owes after next ∧ after + (note state event).toList.length ≤ left)
    (run : machine.Run trace start) {owed : Nat} (owes : Owes owed start)
    (noted : machine.StepsNoting Good note start events notes finish) :
    ∃ left, Owes left finish ∧ left + notes.length ≤ owed := by
  refine noted.invariant (fun _ notes state => ∃ left, Owes left state ∧
    left + notes.length ≤ owed) run ⟨owed, owes, Nat.le_refl owed⟩ ?_
  rintro history notes state label event next reached ⟨left, still, paid⟩ good taken
  obtain ⟨after, owesAfter, lowered⟩ := lowers _ _ _ _ _ _ reached still good taken
  refine ⟨after, owesAfter, ?_⟩
  rw [List.length_append]
  omega

/-- The steps of one actor, as notes. -/
def tally (own : Event → Bool) (_ : State) (event : Event) : Option PUnit :=
  if own event then some PUnit.unit else none

theorem length_tally (own : Event → Bool) (state : State) (event : Event) :
    (tally own state event).toList.length = (own event).toNat := by
  unfold tally
  cases own event <;> rfl

theorem StepsNoting.length_eq_countP {own : Event → Bool} {notes : List PUnit}
    (noted : machine.StepsNoting Good (tally own) start events notes finish) :
    notes.length = events.countP own := by
  induction noted with
  | refl => rfl
  | @snoc _ _ _ _ event _ _ _ _ inductionHypothesis =>
      rw [List.length_append, inductionHypothesis, length_tally, List.countP_append]
      cases counted : own event <;> simp [counted]

/-- The steps of one actor are paid for by what it owes. -/
theorem StepsWhere.spends_owed (own : Event → Bool) (Owes : Nat → State → Prop)
    (lowers : ∀ history left state label event next, machine.Run history state →
      Owes left state → Good state event → machine.step label state = some (event, next) →
      ∃ after, Owes after next ∧ after + (own event).toNat ≤ left)
    (run : machine.Run trace start) {owed : Nat} (owes : Owes owed start)
    (guarded : machine.StepsWhere Good start events finish) :
    ∃ left, Owes left finish ∧ left + events.countP own ≤ owed := by
  obtain ⟨notes, noted⟩ := guarded.noting (tally own)
  rw [← noted.length_eq_countP]
  refine noted.spends Owes ?_ run owes
  intro history left state label event next reached owes good taken
  rw [length_tally]
  exact lowers _ _ _ _ _ _ reached owes good taken

/-- They are paid for by its rank, in a situation that lasts. -/
theorem StepsWhere.spends (own : Event → Bool) (Lasting : State → Prop) (rank : State → Nat)
    (lowers : ∀ history state label event next, machine.Run history state → Lasting state →
      Good state event → machine.step label state = some (event, next) →
      Lasting next ∧ rank next + (own event).toNat ≤ rank state)
    (run : machine.Run trace start) (lasting : Lasting start)
    (guarded : machine.StepsWhere Good start events finish) :
    Lasting finish ∧ rank finish + events.countP own ≤ rank start := by
  have spent := guarded.spends_owed own (fun left state => Lasting state ∧ rank state = left)
    (fun history left state label event next reached owes good taken => by
      obtain ⟨still, rfl⟩ := owes
      obtain ⟨after, lowered⟩ := lowers _ _ _ _ _ reached still good taken
      exact ⟨rank next, ⟨after, rfl⟩, lowered⟩) run ⟨lasting, rfl⟩
  obtain ⟨left, ⟨after, rfl⟩, paid⟩ := spent
  exact ⟨after, paid⟩

end CortexForge.Foundation.Machine
