import CortexForge.Concurrent.Locked

/-!
Contract: what is left of the lists of a lock while a thread is inside its section.

Between two accesses of a section the lists that its lock guards are what the section has
made of them so far. For every point of every section this is said here, against the lists
as they count for everybody else: a task that is being taken off a list is still on it
until the section makes that visible, and one that is being added is not on it yet.

Owns: what holds at each point of a section, and that it depends on the nodes of the lists
in question only.
-/

namespace CortexForge.Concurrent

open CortexForge.Foundation
open CortexForge.Foundation.Links (ListOp SameAt Adding Deleting)

/-! ## Lists and sections -/

/-- The list nodes of some slots. -/
def entries (slots : List Slot) : List ListNode := slots.map .entry

@[simp] theorem entries_nil : entries [] = [] := rfl

@[simp] theorem entries_cons (slot : Slot) (rest : List Slot) :
    entries (slot :: rest) = .entry slot :: entries rest := rfl

theorem entries_snoc (slots : List Slot) (slot : Slot) :
    entries (slots ++ [slot]) = entries slots ++ [.entry slot] := by
  simp [entries]

@[simp] theorem mem_entries {slots : List Slot} {slot : Slot} :
    .entry slot ∈ entries slots ↔ slot ∈ slots := by
  simp [entries]

theorem exists_of_mem_entries {slots : List Slot} {node : ListNode}
    (member : node ∈ entries slots) : ∃ slot ∈ slots, node = .entry slot := by
  obtain ⟨slot, listed, rfl⟩ := List.mem_map.mp member
  exact ⟨slot, listed, rfl⟩

/-- What `task_lock` guards: the free list and the id counter, as they are in memory and as
they should be. -/
structure PoolView where
  links : Links ListNode
  stored : UInt32
  issued : UInt32
  free : List Slot

/-- The pool while nobody is at work on it. -/
structure PoolView.AtRest (view : PoolView) : Prop where
  ring : view.links.Ring .freeTasks (entries view.free)
  counter : view.stored = view.issued

/-- The pool at each point of `task_alloc`. The task counts as free until its id is
stored. -/
inductive PoolView.InAlloc (view : PoolView) : AllocPhase → Prop
  | testEmpty (rest : view.AtRest) : InAlloc view .testEmpty
  | first (rest : view.AtRest) (filled : view.free ≠ []) : InAlloc view .first
  | del {slot : Slot} {others : List Slot} {op : ListOp ListNode}
      (head : view.free = slot :: others) (counter : view.stored = view.issued)
      (deleting : Deleting .freeTasks (.entry slot) (entries others) op view.links) :
      InAlloc view (.del slot op)
  | memset {slot : Slot} {others : List Slot} (word : TaskWord) (more : List TaskWord)
      (head : view.free = slot :: others) (counter : view.stored = view.issued)
      (ring : view.links.Ring .freeTasks (entries others)) : InAlloc view (.memset slot word more)
  | initCompletion {slot : Slot} {others : List Slot} (head : view.free = slot :: others)
      (counter : view.stored = view.issued)
      (ring : view.links.Ring .freeTasks (entries others)) : InAlloc view (.initCompletion slot)
  | nextId {slot : Slot} {others : List Slot} (head : view.free = slot :: others)
      (counter : view.stored = view.issued)
      (ring : view.links.Ring .freeTasks (entries others)) : InAlloc view (.nextId slot)
  | writeId {slot : Slot} {others : List Slot} (head : view.free = slot :: others)
      (counter : view.stored = view.issued + 1)
      (ring : view.links.Ring .freeTasks (entries others)) :
      InAlloc view (.writeId slot view.stored)
  | exhausted (rest : view.AtRest) (empty : view.free = []) : InAlloc view (.unlock none)
  | allocated (rest : view.AtRest) (slot : Slot) : InAlloc view (.unlock (some slot))

/-- What the mutex of an accelerator guards: its two lists. -/
structure QueueView where
  links : Links ListNode
  queue : List Slot
  active : List Slot

/-- The lists while nobody is at work on them. -/
structure QueueView.AtRest (view : QueueView) (accel : AccelIndex) : Prop where
  queue : view.links.Ring (.taskQueue accel) (entries view.queue)
  active : view.links.Ring (.activeTasks accel) (entries view.active)

/-- The lists while a task is added to the queue. -/
structure QueueView.InEnqueue (view : QueueView) (accel : AccelIndex) (slot : Slot)
    (op : ListOp ListNode) : Prop where
  adding : Adding (.taskQueue accel) (entries view.queue) (.entry slot) op view.links
  active : view.links.Ring (.activeTasks accel) (entries view.active)

/-- The lists while the worker takes a task: it counts as queued until the mutex is given
back. -/
inductive QueueView.InDequeue (view : QueueView) (accel : AccelIndex) : DequeuePhase → Prop
  | testEmpty (rest : view.AtRest accel) : InDequeue view accel .testEmpty
  | first (rest : view.AtRest accel) (filled : view.queue ≠ []) : InDequeue view accel .first
  | del {slot : Slot} {others : List Slot} {op : ListOp ListNode}
      (head : view.queue = slot :: others)
      (deleting : Deleting (.taskQueue accel) (.entry slot) (entries others) op view.links)
      (active : view.links.Ring (.activeTasks accel) (entries view.active)) :
      InDequeue view accel (.del slot op)
  | add {slot : Slot} {others : List Slot} {op : ListOp ListNode}
      (head : view.queue = slot :: others)
      (queue : view.links.Ring (.taskQueue accel) (entries others))
      (adding : Adding (.activeTasks accel) (entries view.active) (.entry slot) op view.links) :
      InDequeue view accel (.add slot op)
  | none (rest : view.AtRest accel) (empty : view.queue = []) :
      InDequeue view accel (.unlock none)
  | some {slot : Slot} {others : List Slot} (head : view.queue = slot :: others)
      (queue : view.links.Ring (.taskQueue accel) (entries others))
      (active : view.links.Ring (.activeTasks accel) (entries (view.active ++ [slot]))) :
      InDequeue view accel (.unlock (some slot))

/-- The lists while the worker takes its task off the active list. -/
inductive QueueView.InUnlink (view : QueueView) (accel : AccelIndex) (slot : Slot) :
    UnlinkPhase → Prop
  | del {op : ListOp ListNode} (alone : view.active = [slot])
      (queue : view.links.Ring (.taskQueue accel) (entries view.queue))
      (deleting : Deleting (.activeTasks accel) (.entry slot) [] op view.links) :
      InUnlink view accel slot (.del op)
  | unlock (alone : view.active = [slot])
      (queue : view.links.Ring (.taskQueue accel) (entries view.queue))
      (active : view.links.Ring (.activeTasks accel) []) : InUnlink view accel slot .unlock

section Views

variable {accel : AccelIndex} {slot : Slot} {links : Links ListNode}

/-- The nodes a view of the pool is about. -/
def PoolView.Covers (view : PoolView) (node : ListNode) : Prop :=
  node ∈ .freeTasks :: entries view.free

/-- Rings and operations within the nodes of a view do not see changes elsewhere. -/
theorem ring_of_same {links others : Links ListNode} {head : ListNode} {nodes : List ListNode}
    {Covers : ListNode → Prop} (ring : links.Ring head nodes)
    (same : ∀ node, Covers node → SameAt node links others)
    (covered : ∀ node ∈ head :: nodes, Covers node) : others.Ring head nodes :=
  ring.congr fun node member => same node (covered node member)

theorem PoolView.AtRest.of_same {view : PoolView} (rest : view.AtRest)
    (same : ∀ node, view.Covers node → SameAt node view.links links) :
    { view with links := links }.AtRest :=
  ⟨ring_of_same rest.ring same fun _ member => member, rest.counter⟩

theorem PoolView.InAlloc.of_same {view : PoolView} {phase : AllocPhase}
    (shape : view.InAlloc phase)
    (same : ∀ node, view.Covers node → SameAt node view.links links) :
    { view with links := links }.InAlloc phase := by
  have covered {slot : Slot} {others : List Slot} (head : view.free = slot :: others) :
      ∀ node ∈ .freeTasks :: entries others, view.Covers node := by
    intro node member
    simp only [PoolView.Covers, head, entries_cons, List.mem_cons] at member ⊢
    tauto
  cases shape with
  | testEmpty rest => exact .testEmpty (rest.of_same same)
  | first rest filled => exact .first (rest.of_same same) filled
  | del head counter deleting =>
      refine .del head counter (deleting.of_sameAt fun node member => same node ?_)
      simpa only [PoolView.Covers, head, entries_cons] using member
  | memset word more head counter ring =>
      exact .memset word more head counter (ring_of_same ring same (covered head))
  | initCompletion head counter ring =>
      exact .initCompletion head counter (ring_of_same ring same (covered head))
  | nextId head counter ring => exact .nextId head counter (ring_of_same ring same (covered head))
  | writeId head counter ring =>
      exact @PoolView.InAlloc.writeId { view with links := links } _ _ head counter
        (ring_of_same ring same (covered head))
  | exhausted rest empty => exact .exhausted (rest.of_same same) empty
  | allocated rest slot => exact .allocated (rest.of_same same) slot

/-- The nodes a view of an accelerator is about. -/
def QueueView.Covers (view : QueueView) (accel : AccelIndex) (node : ListNode) : Prop :=
  node ∈ .taskQueue accel :: entries view.queue ∨ node ∈ .activeTasks accel :: entries view.active

theorem QueueView.AtRest.of_same {view : QueueView} (rest : view.AtRest accel)
    (same : ∀ node, view.Covers accel node → SameAt node view.links links) :
    { view with links := links }.AtRest accel :=
  ⟨ring_of_same rest.queue same fun _ member => .inl member,
    ring_of_same rest.active same fun _ member => .inr member⟩

theorem QueueView.InEnqueue.of_same {view : QueueView} {op : ListOp ListNode}
    (shape : view.InEnqueue accel slot op)
    (same : ∀ node, view.Covers accel node → SameAt node view.links links)
    (sameEntry : SameAt (.entry slot) view.links links) :
    { view with links := links }.InEnqueue accel slot op := by
  refine ⟨shape.adding.of_sameAt fun node member => ?_,
    ring_of_same shape.active same fun _ member => .inr member⟩
  rcases List.mem_cons.mp member with rfl | listed
  · exact sameEntry
  · exact same node (.inl listed)

theorem QueueView.InDequeue.of_same {view : QueueView} {phase : DequeuePhase}
    (shape : view.InDequeue accel phase)
    (same : ∀ node, view.Covers accel node → SameAt node view.links links) :
    { view with links := links }.InDequeue accel phase := by
  have covered {slot : Slot} {others : List Slot} (head : view.queue = slot :: others) :
      ∀ node ∈ .entry slot :: .taskQueue accel :: entries others, view.Covers accel node := by
    intro node member
    refine Or.inl ?_
    simp only [head, entries_cons, List.mem_cons] at member ⊢
    tauto
  cases shape with
  | testEmpty rest => exact .testEmpty (rest.of_same same)
  | first rest filled => exact .first (rest.of_same same) filled
  | del head deleting active =>
      refine .del head (deleting.of_sameAt fun node member => same node ?_)
        (ring_of_same active same fun _ member => .inr member)
      refine Or.inl ?_
      simpa only [head, entries_cons] using member
  | add head queue adding =>
      refine .add head (ring_of_same queue same fun node member =>
        covered head node (List.mem_cons_of_mem _ member)) (adding.of_sameAt fun node member => ?_)
      rcases List.mem_cons.mp member with rfl | listed
      · exact same _ (covered head _ List.mem_cons_self)
      · exact same node (.inr listed)
  | none rest empty => exact .none (rest.of_same same) empty
  | some head queue active =>
      refine .some head (ring_of_same queue same fun node member =>
        covered head node (List.mem_cons_of_mem _ member))
        (ring_of_same active same fun node member => ?_)
      simp only [entries_snoc, List.mem_cons, List.mem_append, List.not_mem_nil,
        or_false] at member
      rcases member with isHead | listed | isSlot
      · exact .inr (List.mem_cons.mpr (.inl isHead))
      · exact .inr (List.mem_cons_of_mem _ listed)
      · exact covered head node (isSlot ▸ List.mem_cons_self)

theorem QueueView.InUnlink.of_same {view : QueueView} {phase : UnlinkPhase}
    (shape : view.InUnlink accel slot phase)
    (same : ∀ node, view.Covers accel node → SameAt node view.links links) :
    { view with links := links }.InUnlink accel slot phase := by
  cases shape with
  | del alone queue deleting =>
      refine .del alone (ring_of_same queue same fun _ member => .inl member)
        (deleting.of_sameAt fun node member => same node (.inr ?_))
      simpa only [alone, entries_cons, entries_nil] using member
  | unlock alone queue active =>
      refine .unlock alone (ring_of_same queue same fun _ member => .inl member)
        (ring_of_same active same fun node member => .inr ?_)
      rw [List.mem_singleton] at member
      exact List.mem_cons.mpr (.inl member)

end Views

end CortexForge.Concurrent
