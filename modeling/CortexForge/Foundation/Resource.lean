import Mathlib.Data.Set.Insert
import Mathlib.Data.List.Nodup
import Mathlib.Tactic.Tauto

/-!
Contract: acquiring and releasing resources that need one another.

A log records what is acquired and released. It follows the discipline if nothing is acquired
twice, nothing is acquired before what it needs, nothing is released that is not held, and
nothing is released while something held still needs it.

Owns: the discipline, how logs compose, and the rule for a bracket: what is acquired in an
order of need, and later released in the opposite one, around a log that gives everything back.

Does not own: what the resources are and what each of them needs.
-/

namespace CortexForge.Foundation

universe u

inductive Use (Resource : Type u) where
  | acquire (resource : Resource)
  | release (resource : Resource)

namespace Use

variable {Resource : Type u}

/-- What is held after a log. -/
def held (holding : Set Resource) : List (Use Resource) → Set Resource
  | [] => holding
  | .acquire resource :: log => held (insert resource holding) log
  | .release resource :: log => held (holding \ {resource}) log

def acquires (resources : List Resource) : List (Use Resource) := resources.map .acquire

def releases (resources : List Resource) : List (Use Resource) := resources.map .release

theorem held_append (holding : Set Resource) (first second : List (Use Resource)) :
    held holding (first ++ second) = held (held holding first) second := by
  induction first generalizing holding with
  | nil => rfl
  | cons use first inductionHypothesis =>
      cases use with
      | acquire resource => exact inductionHypothesis _
      | release resource => exact inductionHypothesis _

theorem held_acquires (holding : Set Resource) (resources : List Resource) :
    held holding (acquires resources) = holding ∪ {resource | resource ∈ resources} := by
  induction resources generalizing holding with
  | nil => simp [acquires, held]
  | cons resource resources inductionHypothesis =>
      refine (inductionHypothesis (insert resource holding)).trans ?_
      ext other
      simp only [Set.mem_union, Set.mem_insert_iff, Set.mem_ofPred_eq, List.mem_cons]
      tauto

theorem held_releases (holding : Set Resource) (resources : List Resource) :
    held holding (releases resources) = holding \ {resource | resource ∈ resources} := by
  induction resources generalizing holding with
  | nil =>
      ext other
      simp [releases, held]
  | cons resource resources inductionHypothesis =>
      refine (inductionHypothesis (holding \ {resource})).trans ?_
      ext other
      simp only [Set.mem_sdiff, Set.mem_singleton_iff, Set.mem_ofPred_eq, List.mem_cons]
      tauto

section Discipline

variable (Needs : Resource → Resource → Prop)

/-- The discipline. -/
def Follows : Set Resource → List (Use Resource) → Prop
  | _, [] => True
  | holding, .acquire resource :: log =>
      resource ∉ holding ∧ (∀ need, Needs resource need → need ∈ holding) ∧
        Follows (insert resource holding) log
  | holding, .release resource :: log =>
      resource ∈ holding ∧ (∀ user ∈ holding, ¬ Needs user resource) ∧
        Follows (holding \ {resource}) log

/-- Everything that is held has what it needs. -/
def Closed (holding : Set Resource) : Prop :=
  ∀ resource ∈ holding, ∀ need, Needs resource need → need ∈ holding

/-- A log that follows the discipline and gives back what it takes. -/
def Balanced (holding : Set Resource) (log : List (Use Resource)) : Prop :=
  Follows Needs holding log ∧ held holding log = holding

/-- Listed in an order in which they can be acquired one after the other. -/
structure Buildable (resources : List Resource) : Prop where
  nodup : resources.Nodup
  order : resources.Pairwise fun first second => ¬ Needs first second
  irreflexive : ∀ resource ∈ resources, ¬ Needs resource resource

end Discipline

variable {Needs : Resource → Resource → Prop} {holding : Set Resource}
  {log first second : List (Use Resource)} {resources : List Resource}

theorem follows_append :
    Follows Needs holding (first ++ second) ↔
      Follows Needs holding first ∧ Follows Needs (held holding first) second := by
  induction first generalizing holding with
  | nil => simp [Follows, held]
  | cons use first inductionHypothesis =>
      cases use with
      | acquire resource =>
          simp only [List.cons_append, Follows, held, inductionHypothesis, and_assoc]
      | release resource =>
          simp only [List.cons_append, Follows, held, inductionHypothesis, and_assoc]

/-- The discipline keeps everything supplied with what it needs. -/
theorem Follows.closed (closed : Closed Needs holding) (follows : Follows Needs holding log) :
    Closed Needs (held holding log) := by
  induction log generalizing holding with
  | nil => exact closed
  | cons use log inductionHypothesis =>
      cases use with
      | acquire resource =>
          obtain ⟨-, supplied, rest⟩ := follows
          refine inductionHypothesis (fun user member need needs => ?_) rest
          rcases member with rfl | member
          · exact Or.inr (supplied need needs)
          · exact Or.inr (closed user member need needs)
      | release resource =>
          obtain ⟨-, unused, rest⟩ := follows
          refine inductionHypothesis (fun user member need needs => ?_) rest
          refine ⟨closed user member.1 need needs, ?_⟩
          rintro rfl
          exact unused user member.1 needs

theorem Buildable.sublist {part : List Resource} (buildable : Buildable Needs resources)
    (isPart : part.Sublist resources) : Buildable Needs part where
  nodup := buildable.nodup.sublist isPart
  order := buildable.order.sublist isPart
  irreflexive := fun resource member => buildable.irreflexive resource (isPart.subset member)

theorem Buildable.append {later : List Resource} (left : Buildable Needs resources)
    (right : Buildable Needs later)
    (apart : ∀ resource ∈ resources, ∀ other ∈ later, resource ≠ other ∧ ¬ Needs resource other) :
    Buildable Needs (resources ++ later) where
  nodup := List.nodup_append.mpr ⟨left.nodup, right.nodup, fun resource member other isLater =>
    (apart resource member other isLater).1⟩
  order := List.pairwise_append.mpr ⟨left.order, right.order, fun resource member other isLater =>
    (apart resource member other isLater).2⟩
  irreflexive := fun resource member => (List.mem_append.mp member).elim
    (left.irreflexive resource) (right.irreflexive resource)

/-- What the first resources of such a list need is held or among them. -/
theorem Buildable.supplied_take (buildable : Buildable Needs resources)
    (supplied : ∀ resource ∈ resources, ∀ need, Needs resource need →
      need ∈ holding ∨ need ∈ resources) (count : Nat) :
    ∀ resource ∈ resources.take count, ∀ need, Needs resource need →
      need ∈ holding ∨ need ∈ resources.take count := by
  intro resource member need needs
  have order := buildable.order
  rw [← List.take_append_drop count resources, List.pairwise_append] at order
  rcases supplied resource (List.mem_of_mem_take member) need needs with held | among
  · exact Or.inl held
  · rw [← List.take_append_drop count resources, List.mem_append] at among
    rcases among with early | late
    · exact Or.inr early
    · exact absurd needs (order.2.2 resource member need late)

/-- A list that can be acquired in order is acquired in order. -/
theorem follows_acquires (buildable : Buildable Needs resources)
    (fresh : ∀ resource ∈ resources, resource ∉ holding)
    (supplied : ∀ resource ∈ resources, ∀ need, Needs resource need →
      need ∈ holding ∨ need ∈ resources) :
    Follows Needs holding (acquires resources) := by
  induction resources generalizing holding with
  | nil => trivial
  | cons resource resources inductionHypothesis =>
      obtain ⟨notMember, -⟩ := List.nodup_cons.mp buildable.nodup
      obtain ⟨later, -⟩ := List.pairwise_cons.mp buildable.order
      refine ⟨fresh resource List.mem_cons_self, fun need needs => ?_, ?_⟩
      · rcases supplied resource List.mem_cons_self need needs with member | member
        · exact member
        · rcases List.mem_cons.mp member with rfl | member
          · exact absurd needs (buildable.irreflexive need List.mem_cons_self)
          · exact absurd needs (later need member)
      · refine inductionHypothesis (buildable.sublist (List.sublist_cons_self _ _))
          (fun other member => ?_) fun other member need needs => ?_
        · rintro (rfl | held)
          · exact notMember member
          · exact fresh other (List.mem_cons_of_mem _ member) held
        · rcases supplied other (List.mem_cons_of_mem _ member) need needs with held | among
          · exact Or.inl (Or.inr held)
          · rcases List.mem_cons.mp among with rfl | among
            · exact Or.inl (Or.inl rfl)
            · exact Or.inr among

/-- A list can be released in the opposite order, if nothing else needs any of it. -/
theorem follows_releases (buildable : Buildable Needs resources.reverse)
    (all : ∀ resource ∈ resources, resource ∈ holding)
    (unused : ∀ resource ∈ resources, ∀ user ∈ holding, Needs user resource →
      user ∈ resources) :
    Follows Needs holding (releases resources) := by
  obtain ⟨nodup, order, irreflexive⟩ := buildable
  rw [List.nodup_reverse] at nodup
  rw [List.pairwise_reverse] at order
  simp only [List.mem_reverse] at irreflexive
  induction resources generalizing holding with
  | nil => trivial
  | cons resource resources inductionHypothesis =>
      obtain ⟨notMember, nodupRest⟩ := List.nodup_cons.mp nodup
      obtain ⟨later, orderRest⟩ := List.pairwise_cons.mp order
      refine ⟨all resource List.mem_cons_self, fun user member needs => ?_, ?_⟩
      · rcases List.mem_cons.mp (unused resource List.mem_cons_self user member needs) with
          rfl | among
        · exact irreflexive user List.mem_cons_self needs
        · exact later user among needs
      · refine inductionHypothesis (fun other member => ?_) (fun other member user held needs => ?_)
          nodupRest orderRest fun other member => irreflexive other (List.mem_cons_of_mem _ member)
        · refine ⟨all other (List.mem_cons_of_mem _ member), ?_⟩
          rintro rfl
          exact notMember member
        · rcases List.mem_cons.mp
            (unused other (List.mem_cons_of_mem _ member) user held.1 needs) with rfl | among
          · exact absurd rfl held.2
          · exact among

theorem Balanced.append (left : Balanced Needs holding first)
    (right : Balanced Needs holding second) : Balanced Needs holding (first ++ second) := by
  refine ⟨follows_append.mpr ⟨left.1, ?_⟩, ?_⟩
  · rw [left.2]
    exact right.1
  · rw [held_append, left.2, right.2]

/-- The bracket: acquire, do something that gives everything back, and release. -/
theorem balanced_bracket {released : List Resource} (closed : Closed Needs holding)
    (buildable : Buildable Needs resources) (opposite : Buildable Needs released.reverse)
    (same : ∀ resource, resource ∈ released ↔ resource ∈ resources)
    (fresh : ∀ resource ∈ resources, resource ∉ holding)
    (supplied : ∀ resource ∈ resources, ∀ need, Needs resource need →
      need ∈ holding ∨ need ∈ resources)
    (inner : Balanced Needs (holding ∪ {resource | resource ∈ resources}) log) :
    Balanced Needs holding (acquires resources ++ log ++ releases released) := by
  have acquired := follows_acquires buildable fresh supplied
  have heldInner : held holding (acquires resources ++ log) =
      holding ∪ {resource | resource ∈ resources} := by
    rw [held_append, held_acquires, inner.2]
  refine ⟨follows_append.mpr ⟨follows_append.mpr ⟨acquired, ?_⟩, ?_⟩, ?_⟩
  · rw [held_acquires]
    exact inner.1
  · rw [heldInner]
    refine follows_releases opposite (fun resource member => Or.inr ((same resource).mp member))
      fun resource member user held needs => ?_
    rcases held with held | among
    · exact absurd (closed user held resource needs) (fresh resource ((same resource).mp member))
    · exact (same user).mpr among
  · rw [held_append, heldInner, held_releases]
    ext resource
    have notHeld := fresh resource
    simp only [Set.mem_sdiff, Set.mem_union, Set.mem_ofPred_eq, same]
    tauto

end Use

end CortexForge.Foundation
