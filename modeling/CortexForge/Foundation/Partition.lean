import Mathlib.Data.List.Nodup
import Mathlib.Logic.Function.Basic

/-!
Contract: items that are each on exactly one of a family of lists.

`owner` says where each item belongs and `content` gives the list of every
place. The two agree when each list holds exactly the items of its place, each
once. Moving an item erases it from one list and appends it to another.

Owns: the agreement, its preservation by a move, and what it says about one
item.

Does not own: how the places or the moves are chosen.
-/

namespace CortexForge.Foundation

universe u v

variable {Item : Type u} {Place : Type v}

/-- Every list of `content` holds exactly the items of its place, each once. -/
structure Partition (owner : Item → Place) (content : Place → List Item) : Prop where
  nodup : ∀ place, (content place).Nodup
  mem : ∀ place item, item ∈ content place ↔ owner item = place

namespace Partition

variable {owner : Item → Place} {content moved : Place → List Item}

/-- An item is on the list of its owner and on no other. -/
theorem existsUnique_mem (partition : Partition owner content) (item : Item) :
    ∃! place, item ∈ content place := by
  refine ⟨owner item, (partition.mem _ _).mpr rfl, ?_⟩
  intro place member
  exact ((partition.mem place item).mp member).symm

/-- A list of at most one item names it. -/
theorem owner_eq_iff_of_toList (partition : Partition owner content) {place : Place}
    {held : Option Item} (single : content place = held.toList) (item : Item) :
    owner item = place ↔ held = some item := by
  rw [← partition.mem, single, Option.mem_toList]

/-- Moving one item from its place to another. -/
theorem move [DecidableEq Item] (partition : Partition owner content) {item : Item}
    {source target : Place} (owned : owner item = source) (different : source ≠ target)
    (erased : moved source = (content source).erase item)
    (appended : moved target = content target ++ [item])
    (others : ∀ place, place ≠ source → place ≠ target → moved place = content place) :
    Partition (Function.update owner item target) moved := by
  subst owned
  have absent : item ∉ content target := by
    intro member
    exact different ((partition.mem _ _).mp member)
  constructor
  · intro place
    by_cases isSource : place = owner item
    · subst place
      rw [erased]
      exact (partition.nodup _).erase item
    · by_cases isTarget : place = target
      · subst place
        rw [appended]
        exact List.Nodup.append (partition.nodup _) (List.nodup_singleton item)
          (List.disjoint_singleton.mpr absent)
      · rw [others place isSource isTarget]
        exact partition.nodup place
  · intro place other
    by_cases isItem : other = item
    · subst other
      rw [Function.update_self]
      by_cases isSource : place = owner item
      · subst place
        rw [erased, (partition.nodup _).mem_erase_iff]
        simp [different.symm]
      · by_cases isTarget : place = target
        · subst place
          simp [appended]
        · rw [others place isSource isTarget, partition.mem]
          simp [Ne.symm isSource, Ne.symm isTarget]
    · rw [Function.update_of_ne isItem, ← partition.mem]
      by_cases isSource : place = owner item
      · subst place
        rw [erased, List.mem_erase_of_ne isItem]
      · by_cases isTarget : place = target
        · subst place
          rw [appended]
          simp [isItem]
        · rw [others place isSource isTarget]

/-- Nothing moves: the lists and the owners stay. -/
theorem congr (partition : Partition owner content) {owner' : Item → Place}
    (sameOwner : ∀ item, owner' item = owner item)
    (sameContent : ∀ place, moved place = content place) : Partition owner' moved := by
  obtain rfl : owner' = owner := funext sameOwner
  obtain rfl : moved = content := funext sameContent
  exact partition

end Partition

end CortexForge.Foundation
