import Mathlib.Logic.Function.Basic

/-!
Contract: locks and the sections they guard.

Every lock records who owns it, and every actor is inside the section of at most one lock.
The two agree if an actor is inside a section exactly while it owns the lock of that
section; then no two actors are ever inside sections of one lock.

Owns: the agreement, and its preservation when a lock is taken or given back.

Does not own: what an actor does inside a section.
-/

namespace CortexForge.Foundation

universe u v

variable {Lock : Type u} {Actor : Type v}

/-- An actor is inside the section of a lock exactly if it owns the lock. -/
def Exclusive (owner : Lock → Option Actor) (inside : Actor → Option Lock) : Prop :=
  ∀ actor lock, inside actor = some lock ↔ owner lock = some actor

namespace Exclusive

variable {owner : Lock → Option Actor} {inside : Actor → Option Lock}

/-- Two actors are never inside sections of one lock. -/
theorem actor_unique (exclusive : Exclusive owner inside) {first second : Actor} {lock : Lock}
    (firstInside : inside first = some lock) (secondInside : inside second = some lock) :
    first = second := by
  rw [exclusive first lock] at firstInside
  rw [exclusive second lock, firstInside, Option.some.injEq] at secondInside
  exact secondInside

variable [DecidableEq Lock] [DecidableEq Actor]

omit [DecidableEq Lock] in
/-- An actor stays where it is. -/
theorem stay (exclusive : Exclusive owner inside) {actor : Actor} {held : Option Lock}
    (same : held = inside actor) : Exclusive owner (Function.update inside actor held) := by
  rw [same, Function.update_eq_self]
  exact exclusive

/-- An actor that is in no section takes a lock nobody owns. -/
theorem acquire (exclusive : Exclusive owner inside) {actor : Actor} {lock : Lock}
    (outside : inside actor = none) (free : owner lock = none) :
    Exclusive (Function.update owner lock (some actor))
      (Function.update inside actor (some lock)) := by
  intro other held
  by_cases sameActor : other = actor
  · subst sameActor
    by_cases sameLock : held = lock
    · subst sameLock
      simp
    · have notOwned : owner held ≠ some other := fun owned => by
        rw [← exclusive other held, outside] at owned
        cases owned
      simpa [sameLock, notOwned] using fun same : lock = held => sameLock same.symm
  · by_cases sameLock : held = lock
    · subst sameLock
      have notInside : inside other ≠ some held := fun isInside => by
        rw [exclusive other held, free] at isInside
        cases isInside
      simpa [sameActor, notInside] using fun same : actor = other => sameActor same.symm
    · simpa [sameActor, sameLock] using exclusive other held

/-- An actor gives back the lock of its section. -/
theorem release (exclusive : Exclusive owner inside) {actor : Actor} {lock : Lock}
    (isInside : inside actor = some lock) :
    Exclusive (Function.update owner lock none) (Function.update inside actor none) := by
  intro other held
  by_cases sameActor : other = actor
  · subst sameActor
    by_cases sameLock : held = lock
    · simp [sameLock]
    · have notOwned : owner held ≠ some other := fun owned => by
        rw [← exclusive other held, isInside, Option.some.injEq] at owned
        exact sameLock owned.symm
      simp [sameLock, notOwned]
  · by_cases sameLock : held = lock
    · subst sameLock
      have notInside : inside other ≠ some held := fun otherInside =>
        sameActor (exclusive.actor_unique otherInside isInside)
      simp [sameActor, notInside]
    · simpa [sameActor, sameLock] using exclusive other held

end Exclusive

end CortexForge.Foundation
