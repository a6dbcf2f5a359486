import Mathlib.Data.List.Nodup
import Mathlib.Logic.Function.Basic

/-!
Contract: circular doubly linked lists threaded through their own elements.

Every node holds two pointers. A list is a ring through a head node, and all operations
work by storing into the pointers of a node and of its two neighbours. The pointers of a
node that is on no ring may hold anything.

Owns: the pointer stores of the list operations, rings and what they contain, and how
each operation changes a ring.

Does not own: what the nodes are part of.
-/

namespace CortexForge.Foundation

/-- A pointer to a node. A node that is taken off its list is left with two values that
are no addresses. -/
inductive Pointer (Node : Type*) where
  | null
  | poison1
  | poison2
  | node (target : Node)
deriving DecidableEq

/-- The two pointers of every node. -/
structure Links (Node : Type*) where
  next : Node → Pointer Node
  prev : Node → Pointer Node

namespace Links

variable {Node : Type*}

/-! ## Segments -/

/-- Two nodes point to each other. -/
def Linked (links : Links Node) (before after : Node) : Prop :=
  links.next before = .node after ∧ links.prev after = .node before

/-- A way from one node to another through the given nodes. -/
def Segment (links : Links Node) : Node → List Node → Node → Prop
  | first, [], last => links.Linked first last
  | first, node :: rest, last => links.Linked first node ∧ Segment links node rest last

theorem segment_snoc {links : Links Node} {first node last : Node} {nodes : List Node} :
    links.Segment first (nodes ++ [node]) last ↔
      links.Segment first nodes node ∧ links.Linked node last := by
  induction nodes generalizing first with
  | nil => rfl
  | cons head rest inductionHypothesis =>
      simp only [List.cons_append, Segment, inductionHypothesis, and_assoc]

/-- A segment depends on the pointers along it only. -/
theorem Segment.congr {links others : Links Node} {first last : Node} {nodes : List Node}
    (segment : links.Segment first nodes last)
    (sameNext : ∀ node ∈ first :: nodes, others.next node = links.next node)
    (samePrev : ∀ node ∈ nodes ++ [last], others.prev node = links.prev node) :
    others.Segment first nodes last := by
  induction nodes generalizing first with
  | nil => exact ⟨(sameNext first (by simp)).trans segment.1,
      (samePrev last (by simp)).trans segment.2⟩
  | cons head rest inductionHypothesis =>
      obtain ⟨linked, segment⟩ := segment
      refine ⟨⟨(sameNext first (by simp)).trans linked.1,
        (samePrev head (by simp)).trans linked.2⟩, inductionHypothesis segment ?_ ?_⟩
      · intro node member
        exact sameNext node (List.mem_cons_of_mem _ member)
      · intro node member
        exact samePrev node (List.mem_cons_of_mem _ member)

/-! ## Rings -/

/-- The list with this head holds these nodes, in order. -/
structure Ring (links : Links Node) (head : Node) (nodes : List Node) : Prop where
  nodup : (head :: nodes).Nodup
  segment : links.Segment head nodes head

namespace Ring

variable {links : Links Node} {head : Node} {nodes : List Node}

/-- A ring depends on the pointers of its own nodes only. -/
theorem congr {others : Links Node} (ring : links.Ring head nodes)
    (same : ∀ node ∈ head :: nodes,
      others.next node = links.next node ∧ others.prev node = links.prev node) :
    others.Ring head nodes where
  nodup := ring.nodup
  segment := by
    refine ring.segment.congr (fun node member => (same node member).1) fun node member => ?_
    exact (same node (by simpa [or_comm] using member)).2

/-- Storing into a node that is not on the list leaves the list alone. -/
theorem of_elsewhere {others : Links Node} {node : Node} (ring : links.Ring head nodes)
    (absent : node ∉ head :: nodes)
    (elsewhere : ∀ other ≠ node,
      others.next other = links.next other ∧ others.prev other = links.prev other) :
    others.Ring head nodes :=
  ring.congr fun other member => elsewhere other fun same => absent (same ▸ member)

theorem next_head {node : Node} {rest : List Node} (ring : links.Ring head (node :: rest)) :
    links.next head = .node node := ring.segment.1.1

end Ring

variable [DecidableEq Node]

/-! ## Operations -/

def setNext (links : Links Node) (node : Node) (value : Pointer Node) : Links Node :=
  { links with next := Function.update links.next node value }

def setPrev (links : Links Node) (node : Node) (value : Pointer Node) : Links Node :=
  { links with prev := Function.update links.prev node value }

@[simp] theorem setNext_next (links : Links Node) (node other : Node) (value : Pointer Node) :
    (links.setNext node value).next other = if other = node then value else links.next other :=
  Function.update_apply ..

@[simp] theorem setNext_prev (links : Links Node) (node : Node) (value : Pointer Node) :
    (links.setNext node value).prev = links.prev := rfl

@[simp] theorem setPrev_prev (links : Links Node) (node other : Node) (value : Pointer Node) :
    (links.setPrev node value).prev other = if other = node then value else links.prev other :=
  Function.update_apply ..

@[simp] theorem setPrev_next (links : Links Node) (node : Node) (value : Pointer Node) :
    (links.setPrev node value).next = links.next := rfl

/-- `INIT_LIST_HEAD`. -/
def initListHead (head : Node) (links : Links Node) : Links Node :=
  (links.setNext head (.node head)).setPrev head (.node head)

/-- `__list_add`: the stores in the order in which they are made. -/
def listAdd (new before after : Node) (links : Links Node) : Links Node :=
  (((links.setPrev after (.node new)).setNext new (.node after)).setPrev new
    (.node before)).setNext before (.node new)

/-- `list_add_tail`: `none` if the head does not point to a node. -/
def listAddTail (new head : Node) (links : Links Node) : Option (Links Node) :=
  match links.prev head with
  | .node last => some (links.listAdd new last head)
  | _ => none

/-- `__list_del`, and the two stores with which `list_del` ends. -/
def unlink (entry before after : Node) (links : Links Node) : Links Node :=
  (((links.setPrev after (.node before)).setNext before (.node after)).setNext entry
    .poison1).setPrev entry .poison2

/-- `list_del`: `none` if one of the neighbours is no node. -/
def listDel (entry : Node) (links : Links Node) : Option (Links Node) :=
  match links.prev entry, links.next entry with
  | .node before, .node after => some (links.unlink entry before after)
  | _, _ => none

/-- `list_empty`. -/
def listEmpty (head : Node) (links : Links Node) : Bool :=
  links.next head = .node head

/-- Both pointers overwritten with zeros. -/
def clear (node : Node) (links : Links Node) : Links Node :=
  (links.setNext node .null).setPrev node .null

/-- The nodes met from `node` on until the head comes round, at most `fuel` of them. -/
def walk (links : Links Node) (head : Node) : Nat → Node → List Node
  | 0, _ => []
  | fuel + 1, node =>
      match links.next node with
      | .node after => if after = head then [] else after :: walk links head fuel after
      | _ => []

/-! ## What the operations do to a ring -/

theorem ring_initListHead (links : Links Node) (head : Node) :
    (links.initListHead head).Ring head [] where
  nodup := by simp
  segment := by simp [Segment, Linked, initListHead]

theorem Segment.walk_eq {links : Links Node} {head first : Node} {nodes : List Node} {fuel : Nat}
    (segment : links.Segment first nodes head) (absent : head ∉ nodes)
    (enough : nodes.length < fuel) : links.walk head fuel first = nodes := by
  induction nodes generalizing first fuel with
  | nil =>
      obtain ⟨fuel, rfl⟩ := Nat.exists_eq_succ_of_ne_zero (Nat.ne_of_gt enough)
      simp only [walk, segment.1, ↓reduceIte]
  | cons node rest inductionHypothesis =>
      obtain ⟨fuel, rfl⟩ := Nat.exists_eq_succ_of_ne_zero
        (Nat.ne_of_gt (Nat.lt_of_le_of_lt (Nat.zero_le _) enough))
      obtain ⟨linked, segment⟩ := segment
      rw [List.mem_cons, not_or] at absent
      simp only [walk, linked.1, if_neg (Ne.symm absent.1)]
      rw [inductionHypothesis segment absent.2 (by simpa using enough)]

namespace Ring

variable {links : Links Node} {head : Node} {nodes : List Node}

theorem listEmpty_iff (ring : links.Ring head nodes) :
    links.listEmpty head = true ↔ nodes = [] := by
  have nodup := ring.nodup
  have segment := ring.segment
  cases nodes with
  | nil => simpa [listEmpty] using segment.1
  | cons node rest =>
      have different : node ≠ head := by
        rintro rfl
        simp at nodup
      simpa [listEmpty, segment.1.1] using different

/-- `list_add_tail` of a node that is not on the list puts it at the end. -/
theorem listAddTail {new : Node} (ring : links.Ring head nodes) (absent : new ∉ head :: nodes) :
    ∃ after, links.listAddTail new head = some after ∧ after.Ring head (nodes ++ [new]) := by
  obtain ⟨notHead, notListed⟩ : new ≠ head ∧ new ∉ nodes := by simpa using absent
  have nodup : (head :: (nodes ++ [new])).Nodup := by
    rw [← List.cons_append]
    exact List.nodup_append.mpr ⟨ring.nodup, by simp, by
      intro node member other isNew same
      rw [List.mem_singleton] at isNew
      exact absent (isNew ▸ same ▸ member)⟩
  rcases nodes.eq_nil_or_concat with rfl | ⟨front, last, rfl⟩
  · have linked : links.Linked head head := ring.segment
    refine ⟨links.listAdd new head head, by simp [Links.listAddTail, linked.2], nodup, ?_⟩
    simp [Segment, Linked, listAdd, notHead, Ne.symm notHead]
  · rw [List.concat_eq_append] at ring notListed nodup ⊢
    obtain ⟨segment, linked⟩ := segment_snoc.mp ring.segment
    have distinct := ring.nodup
    simp only [List.nodup_cons, List.nodup_append, List.mem_append, List.mem_singleton,
      not_or] at distinct
    obtain ⟨⟨headNotFront, headNotLast⟩, -, -, frontNotLast⟩ := distinct
    simp only [List.mem_append, List.mem_singleton, not_or] at notListed
    obtain ⟨notFront, notLast⟩ := notListed
    refine ⟨links.listAdd new last head, by simp [Links.listAddTail, linked.2], nodup, ?_⟩
    rw [segment_snoc, segment_snoc]
    refine ⟨⟨segment.congr ?_ ?_, ?_⟩, ?_⟩
    · -- Forward pointers change at the new node and at the last one only.
      intro node member
      have notNew : node ≠ new := fun same => by
        rcases List.mem_cons.mp (same ▸ member) with isHead | listed
        · exact notHead isHead
        · exact notFront listed
      have notEnd : node ≠ last := fun same => by
        rcases List.mem_cons.mp (same ▸ member) with isHead | listed
        · exact headNotLast isHead.symm
        · exact frontNotLast last listed last rfl rfl
      simp [listAdd, notNew, notEnd]
    · -- Backward pointers change at the new node and at the head only.
      intro node member
      have notNew : node ≠ new := fun same => by
        rcases List.mem_append.mp (same ▸ member) with listed | isLast
        · exact notFront listed
        · exact notLast (List.mem_singleton.mp isLast)
      have notStart : node ≠ head := fun same => by
        rcases List.mem_append.mp (same ▸ member) with listed | isLast
        · exact headNotFront listed
        · exact headNotLast (List.mem_singleton.mp isLast)
      simp [listAdd, notNew, notStart]
    · simp [Linked, listAdd]
    · simp [Linked, listAdd, notLast, Ne.symm notHead]

/-- `list_del` of the first node leaves the others. -/
theorem listDel_first {node : Node} {rest : List Node} (ring : links.Ring head (node :: rest)) :
    ∃ after, links.listDel node = some after ∧ after.Ring head rest := by
  have nodup := ring.nodup
  simp only [List.nodup_cons, List.mem_cons, not_or] at nodup
  obtain ⟨⟨headNotNode, headNotRest⟩, nodeNotRest, restNodup⟩ := nodup
  obtain ⟨linked, segment⟩ := ring.segment
  have restRing : (head :: rest).Nodup := List.nodup_cons.mpr ⟨headNotRest, restNodup⟩
  cases rest with
  | nil =>
      refine ⟨links.unlink node head head, by simp only [Links.listDel, linked.2, segment.1],
        restRing, ?_⟩
      simp [Segment, Linked, unlink, headNotNode]
  | cons second others =>
      obtain ⟨secondLinked, segment⟩ := segment
      have distinct : second ≠ node ∧ node ∉ others := by simpa [eq_comm] using nodeNotRest
      refine ⟨links.unlink node head second,
        by simp only [Links.listDel, linked.2, secondLinked.1], restRing, ?_, ?_⟩
      · simp [Linked, unlink, headNotNode, distinct.1]
      · refine segment.congr ?_ ?_
        · intro other member
          have notNode : other ≠ node := fun same => nodeNotRest (same ▸ member)
          have notHead : other ≠ head := fun same => headNotRest (same ▸ member)
          simp [unlink, notNode, notHead]
        · intro other member
          have notNode : other ≠ node := fun same => by
            rcases List.mem_append.mp (same ▸ member) with listed | isHead
            · exact distinct.2 listed
            · exact headNotNode (List.mem_singleton.mp isHead).symm
          have notSecond : other ≠ second := fun same => by
            rcases List.mem_append.mp (same ▸ member) with listed | isHead
            · exact (List.nodup_cons.mp restNodup).1 listed
            · exact headNotRest (by rw [← List.mem_singleton.mp isHead]; exact List.mem_cons_self)
          simp [unlink, notNode, notSecond]

/-- Following the forward pointers gives the nodes of the list. -/
theorem walk_eq {fuel : Nat} (ring : links.Ring head nodes) (enough : nodes.length < fuel) :
    links.walk head fuel head = nodes :=
  ring.segment.walk_eq (List.nodup_cons.mp ring.nodup).1 enough

end Ring

end Links

end CortexForge.Foundation
