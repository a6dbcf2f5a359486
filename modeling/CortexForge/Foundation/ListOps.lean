import CortexForge.Foundation.Ring

/-!
Contract: the list operations one memory access at a time.

`list_add_tail` and `list_del` load a pointer or two and then make four stores. While a
thread is between two of these accesses its list is no ring. What it is then is said here:
the ring the operation began with, and the stores made so far, seen from the nodes the
operation works on. Stores into other nodes change nothing of this, so several lists can
be worked on at the same time.

Owns: the stores of the operations, the operations as small programs, what holds in the
middle of an operation, and that it ends in the ring the whole operation gives.

Does not own: who may work on a list at what time.
-/

namespace CortexForge.Foundation

namespace Links

variable {Node : Type*}

/-! ## Stores -/

/-- One store into a pointer of a node. -/
inductive Store (Node : Type*) where
  | next (node : Node) (value : Pointer Node)
  | prev (node : Node) (value : Pointer Node)
deriving DecidableEq

/-- The node a store writes into. -/
def Store.node : Store Node → Node
  | .next node _ => node
  | .prev node _ => node

/-- Both pointers of a node are the same in two memories. -/
def SameAt (node : Node) (links others : Links Node) : Prop :=
  others.next node = links.next node ∧ others.prev node = links.prev node

theorem SameAt.refl (node : Node) (links : Links Node) : SameAt node links links := ⟨rfl, rfl⟩

theorem SameAt.trans {node : Node} {links others third : Links Node}
    (first : SameAt node links others) (second : SameAt node others third) :
    SameAt node links third :=
  ⟨second.1.trans first.1, second.2.trans first.2⟩

variable [DecidableEq Node]

def Store.apply : Store Node → Links Node → Links Node
  | .next node value, links => links.setNext node value
  | .prev node value, links => links.setPrev node value

/-- A store changes no other node. -/
theorem Store.sameAt {node : Node} (write : Store Node) (links : Links Node)
    (elsewhere : node ≠ write.node) : SameAt node links (write.apply links) := by
  cases write with
  | next target value => exact ⟨by simp_all [apply, Store.node], rfl⟩
  | prev target value => exact ⟨rfl, by simp_all [apply, Store.node]⟩

/-- Where two memories are the same, they are so after the same store. -/
theorem SameAt.store {node : Node} {links others : Links Node} (same : SameAt node links others)
    (write : Store Node) : SameAt node (write.apply links) (write.apply others) := by
  cases write with
  | next target value => exact ⟨by simp [Store.apply, same.1], same.2⟩
  | prev target value => exact ⟨same.1, by simp [Store.apply, same.2]⟩

/-- A sequence of stores. -/
def makeAll (stores : List (Store Node)) (links : Links Node) : Links Node :=
  stores.foldl (fun memory write => write.apply memory) links

theorem makeAll_snoc (stores : List (Store Node)) (write : Store Node) (links : Links Node) :
    links.makeAll (stores ++ [write]) = write.apply (links.makeAll stores) := by
  simp [makeAll]

/-- The stores of `__list_add`, in order. -/
def addStores (new before after : Node) : List (Store Node) :=
  [.prev after (.node new), .next new (.node after), .prev new (.node before),
    .next before (.node new)]

/-- The stores of `list_del`, in order. -/
def delStores (entry before after : Node) : List (Store Node) :=
  [.prev after (.node before), .next before (.node after), .next entry .poison1,
    .prev entry .poison2]

theorem makeAll_addStores (new before after : Node) (links : Links Node) :
    links.makeAll (addStores new before after) = links.listAdd new before after := rfl

theorem makeAll_delStores (entry before after : Node) (links : Links Node) :
    links.makeAll (delStores entry before after) = links.unlink entry before after := rfl

/-! ## Operations -/

/-- The next access of a thread inside a list operation. -/
inductive ListOp (Node : Type*) where
  | addTail (new head : Node)
  | del (entry : Node)
  | delNext (entry before : Node)
  | store (write : Store Node) (rest : List (Store Node))
deriving DecidableEq

/-- The operation that is left when some stores remain. -/
def ListOp.ofStores : List (Store Node) → Option (ListOp Node)
  | [] => none
  | write :: rest => some (.store write rest)

/-- One access. The operation may be over after it; `none` stands for the fault that
follows when a pointer that is about to be followed is no node. -/
def ListOp.step : ListOp Node → Links Node → Option (Links Node × Option (ListOp Node))
  | .addTail new head, links =>
      match links.prev head with
      | .node last => some (links, ListOp.ofStores (addStores new last head))
      | _ => none
  | .del entry, links =>
      match links.prev entry with
      | .node before => some (links, some (.delNext entry before))
      | _ => none
  | .delNext entry before, links =>
      match links.next entry with
      | .node after => some (links, ListOp.ofStores (delStores entry before after))
      | _ => none
  | .store write rest, links => some (write.apply links, ListOp.ofStores rest)

/-- The number of accesses left. -/
def ListOp.remaining : ListOp Node → Nat
  | .addTail _ _ => 5
  | .del _ => 6
  | .delNext _ _ => 5
  | .store _ rest => rest.length + 1

omit [DecidableEq Node] in
theorem ListOp.remaining_pos (op : ListOp Node) : 0 < op.remaining := by
  cases op <;> simp [remaining]

omit [DecidableEq Node] in
theorem ListOp.remaining_ofStores {stores : List (Store Node)} {op : ListOp Node}
    (left : ListOp.ofStores stores = some op) : op.remaining = stores.length := by
  cases stores with
  | nil => cases left
  | cons write rest =>
      cases left
      rfl

/-- Every access brings the end nearer. -/
theorem ListOp.remaining_step {op next : ListOp Node} {links after : Links Node}
    (taken : op.step links = some (after, some next)) : next.remaining < op.remaining := by
  cases op with
  | addTail new head =>
      simp only [step] at taken
      split at taken
      next last =>
        simp only [Option.some.injEq, Prod.mk.injEq] at taken
        rw [ListOp.remaining_ofStores taken.2]
        exact Nat.lt_succ_self 4
      next => cases taken
  | del entry =>
      simp only [step] at taken
      split at taken
      next before =>
        cases taken
        exact Nat.lt_succ_self 5
      next => cases taken
  | delNext entry before =>
      simp only [step] at taken
      split at taken
      next after =>
        simp only [Option.some.injEq, Prod.mk.injEq] at taken
        rw [ListOp.remaining_ofStores taken.2]
        exact Nat.lt_succ_self 4
      next => cases taken
  | store write rest =>
      simp only [step, Option.some.injEq, Prod.mk.injEq] at taken
      rw [ListOp.remaining_ofStores taken.2]
      exact Nat.lt_succ_self _

/-! ## The ends of a ring -/

namespace Ring

variable {links : Links Node} {head : Node} {nodes : List Node}

omit [DecidableEq Node] in
/-- The head points back to a node of the ring. -/
theorem prev_head (ring : links.Ring head nodes) :
    ∃ last ∈ head :: nodes, links.prev head = .node last := by
  rcases nodes.eq_nil_or_concat with rfl | ⟨front, last, rfl⟩
  · exact ⟨head, by simp, ring.segment.2⟩
  · have segment := ring.segment
    rw [List.concat_eq_append, segment_snoc] at segment
    exact ⟨last, by simp, segment.2.2⟩

omit [DecidableEq Node] in
/-- The first node points back to the head. -/
theorem prev_first {node : Node} {rest : List Node} (ring : links.Ring head (node :: rest)) :
    links.prev node = .node head := ring.segment.1.2

omit [DecidableEq Node] in
/-- The first node points to the second, or to the head. -/
theorem next_first {node : Node} {rest : List Node} (ring : links.Ring head (node :: rest)) :
    ∃ after ∈ head :: rest, links.next node = .node after := by
  obtain ⟨-, segment⟩ := ring.segment
  cases rest with
  | nil => exact ⟨head, by simp, segment.1⟩
  | cons second others => exact ⟨second, by simp, segment.1.1⟩

/-- `list_add_tail` of one node after the other. -/
theorem foldlM_listAddTail {news : List Node} (ring : links.Ring head nodes)
    (nodup : news.Nodup) (absent : ∀ new ∈ news, new ∉ head :: nodes) :
    ∃ after, news.foldlM (fun memory new => memory.listAddTail new head) links = some after ∧
      after.Ring head (nodes ++ news) := by
  induction news generalizing links nodes with
  | nil => exact ⟨links, rfl, by simpa using ring⟩
  | cons new rest inductionHypothesis =>
      obtain ⟨notRest, restNodup⟩ := List.nodup_cons.mp nodup
      obtain ⟨middle, added, middleRing⟩ := ring.listAddTail (absent new List.mem_cons_self)
      have stillAbsent : ∀ other ∈ rest, other ∉ head :: (nodes ++ [new]) := by
        intro other member listed
        have before := absent other (List.mem_cons_of_mem _ member)
        have different : other ≠ new := fun same => notRest (same ▸ member)
        simp_all
      obtain ⟨after, folded, final⟩ := inductionHypothesis middleRing restNodup stillAbsent
      exact ⟨after, by simp [List.foldlM_cons, added, folded], by simpa using final⟩

end Ring

/-! ## In the middle of an operation -/

/-- Some stores of a program have been made on a memory, as far as the given nodes show. -/
structure Midway (nodes : List Node) (base : Links Node) (program : List (Store Node))
    (write : Store Node) (rest : List (Store Node)) (links : Links Node) : Prop where
  made : ∃ done, program = done ++ write :: rest ∧
    ∀ node ∈ nodes, SameAt node (base.makeAll done) links

namespace Midway

variable {nodes : List Node} {base links : Links Node} {program rest : List (Store Node)}
  {write : Store Node}

theorem start {first : Store Node} {stores : List (Store Node)} (nodes : List Node)
    (links : Links Node) : Midway nodes links (first :: stores) first stores links :=
  ⟨[], rfl, fun node _ => SameAt.refl node links⟩

/-- Another memory may be the same at these nodes only. -/
theorem of_sameAt {others : Links Node} (midway : Midway nodes base program write rest links)
    (same : ∀ node ∈ nodes, SameAt node links others) :
    Midway nodes base program write rest others := by
  obtain ⟨done, split, made⟩ := midway.made
  exact ⟨done, split, fun node member => (made node member).trans (same node member)⟩

theorem write_mem (midway : Midway nodes base program write rest links) : write ∈ program := by
  obtain ⟨done, split, -⟩ := midway.made
  rw [split]
  exact List.mem_append_right _ List.mem_cons_self

/-- The next store is made, and another one follows. -/
theorem step {second : Store Node}
    (midway : Midway nodes base program write (second :: rest) links) :
    Midway nodes base program second rest (write.apply links) := by
  obtain ⟨done, split, made⟩ := midway.made
  refine ⟨done ++ [write], by simpa using split, fun node member => ?_⟩
  rw [makeAll_snoc]
  exact (made node member).store write

/-- The last store is made. -/
theorem finish (midway : Midway nodes base program write [] links) :
    ∀ node ∈ nodes, SameAt node (base.makeAll program) (write.apply links) := by
  obtain ⟨done, split, made⟩ := midway.made
  intro node member
  rw [split, makeAll_snoc]
  exact (made node member).store write

end Midway

/-- `list_add_tail` of a node is under way on a list that held the given nodes. -/
inductive Adding (head : Node) (nodes : List Node) (new : Node) :
    ListOp Node → Links Node → Prop
  | load {links : Links Node} (ring : links.Ring head nodes) :
      Adding head nodes new (.addTail new head) links
  | store {base links : Links Node} {last : Node} {write : Store Node}
      {rest : List (Store Node)} (ring : base.Ring head nodes)
      (tail : base.prev head = .node last) (listed : last ∈ head :: nodes)
      (midway : Midway (new :: head :: nodes) base (addStores new last head) write rest links) :
      Adding head nodes new (.store write rest) links

namespace Adding

variable {head new : Node} {nodes : List Node} {op : ListOp Node} {links others : Links Node}

theorem of_sameAt (adding : Adding head nodes new op links)
    (same : ∀ node ∈ new :: head :: nodes, SameAt node links others) :
    Adding head nodes new op others := by
  cases adding with
  | load ring => exact .load (ring.congr fun node member => same node (by simp_all))
  | store ring tail listed midway => exact .store ring tail listed (midway.of_sameAt same)

/-- Until the last store the forward pointer of the head is the old one. -/
theorem listEmpty_iff (adding : Adding head nodes new op links)
    (absent : new ∉ head :: nodes) : links.listEmpty head = true ↔ nodes = [] := by
  cases adding with
  | load ring => exact ring.listEmpty_iff
  | @store base _ last write rest ring tail listed midway =>
      obtain ⟨done, split, made⟩ := midway.made
      have notHead : head ≠ new := fun same => absent (same ▸ List.mem_cons_self)
      have kept : (base.makeAll done).next head = base.next head := by
        match done, split with
        | [], _ => rfl
        | [first], split =>
            cases split
            rfl
        | [first, second], split =>
            cases split
            simp [makeAll, Store.apply, notHead]
        | [first, second, third], split =>
            cases split
            simp [makeAll, Store.apply, notHead]
        | first :: second :: third :: fourth :: more, split =>
            simp [addStores] at split
      rw [← ring.listEmpty_iff, listEmpty, listEmpty,
        (made head (by simp)).1, kept]

/-- What one access comes to: the operation goes on, or the node has been added. -/
def After (head : Node) (nodes : List Node) (new : Node) (links : Links Node) :
    Option (ListOp Node) → Prop
  | some op => Adding head nodes new op links
  | none => links.Ring head (nodes ++ [new])

/-- An access follows no bad pointer, stores into no node outside, and leads on. -/
theorem step (adding : Adding head nodes new op links) (absent : new ∉ head :: nodes) :
    ∃ after next, op.step links = some (after, next) ∧
      (∀ node ∉ new :: head :: nodes, SameAt node links after) ∧
      After head nodes new after next := by
  cases adding with
  | load ring =>
      obtain ⟨last, listed, tail⟩ := ring.prev_head
      exact ⟨links, ListOp.ofStores (addStores new last head), by simp only [ListOp.step, tail],
        fun node _ => SameAt.refl node links,
        Adding.store ring tail listed (Midway.start _ links)⟩
  | @store base _ last write rest ring tail listed midway =>
      refine ⟨write.apply links, ListOp.ofStores rest, rfl, fun node outside => ?_, ?_⟩
      · refine write.sameAt links fun same => outside ?_
        have member := midway.write_mem
        simp only [addStores, List.mem_cons, List.not_mem_nil, or_false] at member
        rcases member with rfl | rfl | rfl | rfl
        · simp [same, Store.node]
        · simp [same, Store.node]
        · simp [same, Store.node]
        · rw [same]
          exact List.mem_cons_of_mem _ listed
      · cases rest with
        | cons second rest => exact Adding.store ring tail listed midway.step
        | nil =>
            obtain ⟨added, isAdded, addedRing⟩ := ring.listAddTail absent
            simp only [listAddTail, tail, Option.some.injEq] at isAdded
            refine addedRing.congr fun node member => ?_
            have same := midway.finish node (by
              simp only [List.mem_cons, List.mem_append, List.not_mem_nil, or_false] at member ⊢
              tauto)
            rwa [makeAll_addStores, isAdded] at same

end Adding

/-- `list_del` of the first node is under way on a list. -/
inductive Deleting (head first : Node) (others : List Node) : ListOp Node → Links Node → Prop
  | load {links : Links Node} (ring : links.Ring head (first :: others)) :
      Deleting head first others (.del first) links
  | loadNext {links : Links Node} (ring : links.Ring head (first :: others)) :
      Deleting head first others (.delNext first head) links
  | store {base links : Links Node} {after : Node} {write : Store Node}
      {rest : List (Store Node)} (ring : base.Ring head (first :: others))
      (tail : base.next first = .node after) (listed : after ∈ head :: others)
      (midway : Midway (head :: first :: others) base (delStores first head after) write rest
        links) :
      Deleting head first others (.store write rest) links

namespace Deleting

variable {head first : Node} {others : List Node} {op : ListOp Node} {links : Links Node}

theorem of_sameAt {changed : Links Node} (deleting : Deleting head first others op links)
    (same : ∀ node ∈ head :: first :: others, SameAt node links changed) :
    Deleting head first others op changed := by
  cases deleting with
  | load ring => exact .load (ring.congr same)
  | loadNext ring => exact .loadNext (ring.congr same)
  | store ring tail listed midway => exact .store ring tail listed (midway.of_sameAt same)

/-- What one access comes to: the operation goes on, or the node has been taken off. -/
def After (head first : Node) (others : List Node) (links : Links Node) :
    Option (ListOp Node) → Prop
  | some op => Deleting head first others op links
  | none => links.Ring head others

/-- An access follows no bad pointer, stores into no node outside, and leads on. -/
theorem step (deleting : Deleting head first others op links) :
    ∃ after next, op.step links = some (after, next) ∧
      (∀ node ∉ head :: first :: others, SameAt node links after) ∧
      After head first others after next := by
  cases deleting with
  | load ring =>
      exact ⟨links, some (.delNext first head), by simp only [ListOp.step, ring.prev_first],
        fun node _ => SameAt.refl node links, Deleting.loadNext ring⟩
  | loadNext ring =>
      obtain ⟨after, listed, tail⟩ := ring.next_first
      exact ⟨links, ListOp.ofStores (delStores first head after),
        by simp only [ListOp.step, tail], fun node _ => SameAt.refl node links,
        Deleting.store ring tail listed (Midway.start _ links)⟩
  | @store base _ after write rest ring tail listed midway =>
      refine ⟨write.apply links, ListOp.ofStores rest, rfl, fun node outside => ?_, ?_⟩
      · refine write.sameAt links fun same => outside ?_
        have member := midway.write_mem
        simp only [delStores, List.mem_cons, List.not_mem_nil, or_false] at member listed
        rcases member with rfl | rfl | rfl | rfl
        · rw [same]
          simp only [Store.node, List.mem_cons]
          tauto
        · simp [same, Store.node]
        · simp [same, Store.node]
        · simp [same, Store.node]
      · cases rest with
        | cons second rest => exact Deleting.store ring tail listed midway.step
        | nil =>
            obtain ⟨deleted, isDeleted, deletedRing⟩ := ring.listDel_first
            simp only [listDel, ring.prev_first, tail, Option.some.injEq] at isDeleted
            refine deletedRing.congr fun node member => ?_
            have same := midway.finish node (by
              simp only [List.mem_cons] at member ⊢
              tauto)
            rwa [makeAll_delStores, isDeleted] at same

end Deleting

end Links

end CortexForge.Foundation
