import CortexForge.Foundation.Ring
import CortexForge.Driver.Pool

/-!
Contract: the free list of the task pool, pointer by pointer.

Source: `src/task_manager.c`. The list is threaded through the `entry` of the very tasks
it holds: `task_alloc` takes a task off the list, and then overwrites the task, its list
pointers included, with zeros. Between the two calls the holder of a task may store
anything into it, the list pointers again included, and does so when it queues the task
on an accelerator.

Owns: the pool in memory, its agreement with the pool of `Driver.TaskManager`, which
keeps the free list as a list, and what holds of the allocator after any sequence of
calls and of stores by the holders.

Does not own: the lists of the accelerators.
-/

namespace CortexForge

open CortexForge.Foundation

/-! ## The pool in memory -/

/-- The list heads that the free list runs through. -/
inductive PoolNode where
  | freeTasks
  | entry (slot : Slot)
deriving DecidableEq

def PoolNode.slot? : PoolNode → Option Slot
  | .freeTasks => none
  | .entry slot => some slot

/-- The tasks with their list pointers, the head of the free list, and the id counter. -/
structure PoolMemory where
  tasks : Slot → Task
  links : Links PoolNode
  nextTaskId : UInt32

namespace PoolMemory

/-- `INIT_LIST_HEAD` of the free list and `atomic_set` of the counter, in
`cortex_forge_probe`. -/
def prepare (memory : PoolMemory) : PoolMemory :=
  { memory with links := memory.links.initListHead .freeTasks, nextTaskId := 0 }

/-- A task is changed and `list_add_tail` puts it on the free list. -/
def putBack (slot : Slot) (change : Task → Task) (memory : PoolMemory) : Option PoolMemory :=
  (memory.links.listAddTail (.entry slot) .freeTasks).map fun links =>
    { memory with
      tasks := Function.update memory.tasks slot (change (memory.tasks slot))
      links := links }

/-- The body of the loop of `task_pool_init`. -/
def taskPoolInitSlot (memory : PoolMemory) (slot : Slot) : Option PoolMemory :=
  memory.putBack slot fun task => { task with state := .free, done := false }

/-- `task_pool_init`. -/
def taskPoolInit (memory : PoolMemory) : Option PoolMemory :=
  (List.finRange maxTasks).foldlM taskPoolInitSlot memory

/-- `memset` of a task that is off the list, and its new id. -/
def handOut (slot : Slot) (links : Links PoolNode) (memory : PoolMemory) : PoolMemory where
  tasks := Function.update memory.tasks slot { Task.zero with id := memory.nextTaskId + 1 }
  links := links.clear (.entry slot)
  nextTaskId := memory.nextTaskId + 1

/-- `task_alloc`. The inner `none` is `NULL`; the outer one stands for a pointer on the
list that is not the `entry` of a task. -/
def taskAlloc (memory : PoolMemory) : Option (Option Slot × PoolMemory) :=
  if memory.links.listEmpty .freeTasks then some (none, memory)
  else
    match memory.links.next .freeTasks with
    | .node (.entry slot) =>
        (memory.links.listDel (.entry slot)).map fun links =>
          (some slot, memory.handOut slot links)
    | _ => none

/-- `task_free`. -/
def taskFree (slot : Slot) (memory : PoolMemory) : Option PoolMemory :=
  memory.putBack slot fun task => { task with state := .free }

/-- The holder of a task stores into it. -/
def store (slot : Slot) (task : Task) (next prev : Pointer PoolNode) (memory : PoolMemory) :
    PoolMemory :=
  { memory with
    tasks := Function.update memory.tasks slot task
    links := (memory.links.setNext (.entry slot) next).setPrev (.entry slot) prev }

/-- The tasks that the free list runs through. -/
def freeTasks (memory : PoolMemory) : List Slot :=
  (memory.links.walk .freeTasks (maxTasks + 1) .freeTasks).filterMap PoolNode.slot?

end PoolMemory

/-! ## Agreement with the pool as a list -/

/-- The memory holds the tasks, the counter and the free list of the device. -/
structure Refines (memory : PoolMemory) (dev : Dev) : Prop where
  tasks : memory.tasks = dev.tasks
  nextTaskId : memory.nextTaskId = dev.nextTaskId
  ring : memory.links.Ring .freeTasks (dev.freeTasks.map .entry)

section Refines

variable {memory : PoolMemory} {dev : Dev}

theorem PoolNode.not_mem_of_not_free {slot : Slot} {free : List Slot} (notFree : slot ∉ free) :
    PoolNode.entry slot ∉ PoolNode.freeTasks :: free.map PoolNode.entry := by
  simpa using notFree

theorem Refines.prepare (memory : PoolMemory) (dev : Dev) (same : memory.tasks = dev.tasks) :
    Refines memory.prepare { dev with freeTasks := [], nextTaskId := 0 } where
  tasks := same
  nextTaskId := rfl
  ring := Links.ring_initListHead memory.links .freeTasks

theorem Refines.putBack (refines : Refines memory dev) {slot : Slot}
    (notFree : slot ∉ dev.freeTasks) (change : Task → Task) :
    ∃ after, memory.putBack slot change = some after ∧
      Refines after
        { dev.modifyTask slot change with freeTasks := dev.freeTasks ++ [slot] } := by
  obtain ⟨links, added, ring⟩ := refines.ring.listAddTail (PoolNode.not_mem_of_not_free notFree)
  refine ⟨{ memory with
    tasks := Function.update memory.tasks slot (change (memory.tasks slot)), links := links },
    by simp [PoolMemory.putBack, added], ?_⟩
  constructor
  · simp only [refines.tasks]
    rfl
  · exact refines.nextTaskId
  · simpa using ring

theorem Refines.taskPoolInitSlot (refines : Refines memory dev) {slot : Slot}
    (notFree : slot ∉ dev.freeTasks) :
    ∃ after, memory.taskPoolInitSlot slot = some after ∧
      Refines after (CortexForge.taskPoolInitSlot dev slot) :=
  refines.putBack notFree _

theorem Refines.taskFree (refines : Refines memory dev) {slot : Slot}
    (notFree : slot ∉ dev.freeTasks) :
    ∃ after, memory.taskFree slot = some after ∧
      Refines after (CortexForge.taskFree slot dev) :=
  refines.putBack notFree _

/-- The loop of `task_pool_init` over slots that are not on the list. -/
theorem Refines.taskPoolInit_fold (refines : Refines memory dev) {slots : List Slot}
    (nodup : slots.Nodup) (notFree : ∀ slot ∈ slots, slot ∉ dev.freeTasks) :
    ∃ after, slots.foldlM PoolMemory.taskPoolInitSlot memory = some after ∧
      Refines after (slots.foldl CortexForge.taskPoolInitSlot dev) := by
  induction slots generalizing memory dev with
  | nil => exact ⟨memory, rfl, refines⟩
  | cons slot rest inductionHypothesis =>
      obtain ⟨slotNotRest, restNodup⟩ := List.nodup_cons.mp nodup
      obtain ⟨middle, initialised, refined⟩ :=
        refines.taskPoolInitSlot (notFree slot List.mem_cons_self)
      have restNotFree : ∀ other ∈ rest,
          other ∉ (CortexForge.taskPoolInitSlot dev slot).freeTasks := by
        intro other member
        have different : other ≠ slot := fun same => slotNotRest (same ▸ member)
        have before := notFree other (List.mem_cons_of_mem _ member)
        simp [CortexForge.taskPoolInitSlot, before, different]
      obtain ⟨after, folded, final⟩ := inductionHypothesis refined restNodup restNotFree
      exact ⟨after, by simp [List.foldlM_cons, initialised, folded], final⟩

theorem Refines.taskPoolInit (refines : Refines memory dev) (empty : dev.freeTasks = []) :
    ∃ after, memory.taskPoolInit = some after ∧
      Refines after (CortexForge.taskPoolInit dev) :=
  refines.taskPoolInit_fold (List.nodup_finRange maxTasks) fun slot _ => by simp [empty]

/-- `task_alloc` on the memory does what it does on the list, follows no bad pointer, and
leaves no list pointer in the task it returns. -/
theorem Refines.taskAlloc (refines : Refines memory dev) :
    (dev.freeTasks = [] ∧ memory.taskAlloc = some (none, memory)) ∨
      ∃ slot rest after, dev.freeTasks = slot :: rest ∧
        memory.taskAlloc = some (some slot, after) ∧
        after.tasks slot = { Task.zero with id := memory.nextTaskId + 1 } ∧
        after.links.next (.entry slot) = .null ∧ after.links.prev (.entry slot) = .null ∧
        ∀ handedOut, Refines after ((Pool.mk dev handedOut).allocate slot rest).dev := by
  have ring := refines.ring
  cases free : dev.freeTasks with
  | nil =>
      rw [free] at ring
      have isEmpty : memory.links.listEmpty .freeTasks = true := ring.listEmpty_iff.mpr rfl
      exact Or.inl ⟨rfl, by simp [PoolMemory.taskAlloc, isEmpty]⟩
  | cons slot rest =>
      rw [free, List.map_cons] at ring
      have notEmpty : memory.links.listEmpty .freeTasks = false := by
        rw [← Bool.not_eq_true, ring.listEmpty_iff]
        exact List.cons_ne_nil _ _
      obtain ⟨links, deleted, restRing⟩ := ring.listDel_first
      have absent : PoolNode.entry slot ∉ PoolNode.freeTasks :: rest.map PoolNode.entry := by
        have nodup := (List.nodup_cons.mp ring.nodup).2
        simpa using (List.nodup_cons.mp nodup).1
      refine Or.inr ⟨slot, rest, memory.handOut slot links, rfl, ?_, ?_, ?_, ?_,
        fun handedOut => ⟨?_, ?_, ?_⟩⟩
      · simp [PoolMemory.taskAlloc, notEmpty, ring.next_head, deleted]
      · exact Function.update_self ..
      · simp [PoolMemory.handOut, Links.clear]
      · simp [PoolMemory.handOut, Links.clear]
      · simp [PoolMemory.handOut, Pool.allocate, refines.tasks, refines.nextTaskId]
      · simp [PoolMemory.handOut, Pool.allocate, refines.nextTaskId]
      · refine restRing.of_elsewhere absent fun other different => ?_
        simp [PoolMemory.handOut, Links.clear, different]

/-- Stores of a holder do not reach the free list. -/
theorem Refines.store (refines : Refines memory dev) {slot : Slot}
    (notFree : slot ∉ dev.freeTasks) (task : Task) (next prev : Pointer PoolNode) :
    Refines (memory.store slot task next prev)
      { dev with tasks := Function.update dev.tasks slot task } where
  tasks := by simp [PoolMemory.store, refines.tasks]
  nextTaskId := refines.nextTaskId
  ring := refines.ring.of_elsewhere (PoolNode.not_mem_of_not_free notFree) fun other different => by
    simp [PoolMemory.store, different]

end Refines

/-! ## Any sequence of calls -/

/-- The pool in memory and the tasks handed out, oldest first. -/
structure PoolUse where
  memory : PoolMemory
  handedOut : List Slot

/-- The calls of the interface, and the stores of the holders in between. -/
inductive UseCall where
  | alloc
  | free (slot : Slot)
  | store (slot : Slot) (task : Task) (next prev : Pointer PoolNode)

inductive UseEvent where
  | call (event : PoolEvent)
  | stored (slot : Slot)
deriving DecidableEq

/-- `task_free` is called on tasks that are handed out only, and only their holders store
into them. -/
def useStep : UseCall → PoolUse → Option (UseEvent × PoolUse)
  | .alloc, use =>
      match use.memory.taskAlloc with
      | none => none
      | some (none, memory) => some (.call .exhausted, ⟨memory, use.handedOut⟩)
      | some (some slot, memory) =>
          some (.call (.allocated slot), ⟨memory, use.handedOut ++ [slot]⟩)
  | .free slot, use =>
      if use.handedOut.contains slot then
        (use.memory.taskFree slot).map fun memory =>
          (.call (.freed slot), ⟨memory, use.handedOut.erase slot⟩)
      else none
  | .store slot task next prev, use =>
      if use.handedOut.contains slot then
        some (.stored slot, ⟨use.memory.store slot task next prev, use.handedOut⟩)
      else none

/-- A use begins with a memory of any contents. -/
def useMachine : Machine PoolUse UseCall UseEvent where
  Initial := fun use => ∃ memory : PoolMemory,
    memory.prepare.taskPoolInit = some use.memory ∧ use.handedOut = []
  step := useStep

def UseEvent.allocates : UseEvent → Option Slot
  | .call (.allocated slot) => some slot
  | _ => none

def UseEvent.frees : UseEvent → Option Slot
  | .call (.freed slot) => some slot
  | _ => none

/-- The tasks returned by `task_alloc`, in order. -/
def allocatedSlots (trace : List UseEvent) : List Slot := trace.filterMap UseEvent.allocates

/-- The tasks given to `task_free`, in order. -/
def freedSlots (trace : List UseEvent) : List Slot := trace.filterMap UseEvent.frees

theorem allocatedSlots_snoc (trace : List UseEvent) (event : UseEvent) :
    allocatedSlots (trace ++ [event]) = allocatedSlots trace ++ event.allocates.toList :=
  Machine.filterMap_snoc _ trace event

theorem freedSlots_snoc (trace : List UseEvent) (event : UseEvent) :
    freedSlots (trace ++ [event]) = freedSlots trace ++ event.frees.toList :=
  Machine.filterMap_snoc _ trace event

/-- What a call of `task_alloc` comes back with: `NULL` exactly if every task is handed
out, and else a task of zeros with an id, on no list. -/
structure AllocSound (use : PoolUse) (result : Option Slot) (after : PoolMemory) : Prop where
  null : result = none ↔ use.handedOut.length = maxTasks
  zeroed : ∀ slot, result = some slot →
    after.tasks slot = { Task.zero with id := (after.tasks slot).id } ∧
      after.links.next (.entry slot) = .null ∧ after.links.prev (.entry slot) = .null

/-- What holds of the allocator after any history. -/
structure PoolSound (trace : List UseEvent) (use : PoolUse) : Prop where
  ring : use.memory.links.Ring .freeTasks (use.memory.freeTasks.map .entry)
  nodup : use.memory.freeTasks.Nodup
  apart : ∀ slot ∈ use.memory.freeTasks, slot ∉ use.handedOut
  heldOnce : use.handedOut.Nodup
  count : use.memory.freeTasks.length + use.handedOut.length = maxTasks
  alloc : ∃ result after, use.memory.taskAlloc = some (result, after) ∧
    AllocSound use result after
  free : ∀ slot ∈ use.handedOut, ∃ after, use.memory.taskFree slot = some after
  order : List.finRange maxTasks ++ freedSlots trace =
    allocatedSlots trace ++ use.memory.freeTasks

/-- The memory is that of a pool whose lists hold every task once, and the free list holds
what has been freed and not taken since, behind what is left of the initial order. -/
structure Backed (trace : List UseEvent) (use : PoolUse) (dev : Dev) : Prop where
  refines : Refines use.memory dev
  lists : (Pool.mk dev use.handedOut).Lists
  order : List.finRange maxTasks ++ freedSlots trace = allocatedSlots trace ++ dev.freeTasks

/-- Every task is on one of the two lists. -/
theorem Pool.Lists.length {pool : Pool} (lists : pool.Lists) :
    pool.dev.freeTasks.length + pool.handedOut.length = maxTasks := by
  have all : (pool.dev.freeTasks ++ pool.handedOut).Perm (List.finRange maxTasks) :=
    (List.perm_ext_iff_of_nodup lists.nodup (List.nodup_finRange maxTasks)).mpr fun slot =>
      ⟨fun _ => List.mem_finRange slot, fun _ => lists.mem slot⟩
  rw [← List.length_append, all.length_eq, List.length_finRange]

theorem Pool.Lists.not_free_of_held {pool : Pool} (lists : pool.Lists) {slot : Slot}
    (held : slot ∈ pool.handedOut) : slot ∉ pool.dev.freeTasks := fun free =>
  (List.nodup_append.mp lists.nodup).2.2 slot free slot held rfl

/-- `task_pool_init` on a memory is `task_pool_init` on a pool. -/
theorem Refines.init {memory after : PoolMemory}
    (initialised : memory.prepare.taskPoolInit = some after) :
    Refines after (Pool.init { Dev.zero with tasks := memory.tasks }).dev := by
  have prepared := Refines.prepare memory { Dev.zero with tasks := memory.tasks } rfl
  obtain ⟨other, isOther, refines⟩ := prepared.taskPoolInit rfl
  rw [initialised, Option.some.injEq] at isOther
  rw [isOther]
  simpa only [Pool.init] using refines

theorem Backed.initial {use : PoolUse} (initial : useMachine.Initial use) :
    ∃ dev, Backed [] use dev := by
  obtain ⟨memory, initialised, none⟩ := initial
  refine ⟨_, Refines.init initialised, ?_, ?_⟩
  · have lists := Pool.Lists.init { Dev.zero with tasks := memory.tasks }
    rw [none]
    simpa only [Pool.init] using lists
  · simp [freedSlots, allocatedSlots, Pool.init, taskPoolInit_eq]

/-- Each call is a call on the pool as a list. -/
theorem Backed.step {trace : List UseEvent} {use next : PoolUse} {dev : Dev} {call : UseCall}
    {event : UseEvent} (backed : Backed trace use dev)
    (taken : useMachine.step call use = some (event, next)) :
    ∃ after, Backed (trace ++ [event]) next after := by
  change useStep call use = some (event, next) at taken
  obtain ⟨refines, lists, order⟩ := backed
  cases call with
  | alloc =>
      rcases refines.taskAlloc with
        ⟨exhausted, returned⟩ | ⟨slot, rest, memory, free, returned, -, -, -, refined⟩
      · simp only [useStep, returned, Option.some.injEq, Prod.mk.injEq] at taken
        obtain ⟨rfl, rfl⟩ := taken
        exact ⟨dev, refines, lists, by
          simpa [freedSlots_snoc, allocatedSlots_snoc, UseEvent.frees, UseEvent.allocates]
            using order⟩
      · simp only [useStep, returned, Option.some.injEq, Prod.mk.injEq] at taken
        obtain ⟨rfl, rfl⟩ := taken
        refine ⟨((Pool.mk dev use.handedOut).allocate slot rest).dev, refined use.handedOut,
          lists.step (.allocated slot rest free), ?_⟩
        rw [free] at order
        simpa [freedSlots_snoc, allocatedSlots_snoc, UseEvent.frees, UseEvent.allocates,
          Pool.allocate] using order
  | free slot =>
      simp only [useStep] at taken
      split at taken
      next isHeld =>
        have held := List.contains_iff_mem.mp isHeld
        obtain ⟨memory, freed, refined⟩ := refines.taskFree (lists.not_free_of_held held)
        simp only [freed, Option.map_some, Option.some.injEq, Prod.mk.injEq] at taken
        obtain ⟨rfl, rfl⟩ := taken
        refine ⟨taskFree slot dev, refined, lists.step (.freed slot held), ?_⟩
        rw [freedSlots_snoc, allocatedSlots_snoc, ← List.append_assoc, order]
        simp [UseEvent.frees, UseEvent.allocates, taskFree]
      next => cases taken
  | store slot task nextLink prevLink =>
      simp only [useStep] at taken
      split at taken
      next isHeld =>
        have held := List.contains_iff_mem.mp isHeld
        cases taken
        refine ⟨_, refines.store (lists.not_free_of_held held) task nextLink prevLink,
          ⟨lists.nodup, lists.mem⟩, ?_⟩
        simpa [freedSlots_snoc, allocatedSlots_snoc, UseEvent.frees, UseEvent.allocates]
          using order
      next => cases taken

theorem backed_of_run {trace : List UseEvent} {use : PoolUse}
    (run : useMachine.Run trace use) : ∃ dev, Backed trace use dev := by
  refine run.invariant (fun trace use => ∃ dev, Backed trace use dev) ?_ ?_
  · intro use initial
    exact Backed.initial initial
  · rintro trace use call event next - ⟨dev, backed⟩ taken
    exact backed.step taken

/-- Walking the free list in memory gives the free list. -/
theorem Backed.freeTasks_eq {trace : List UseEvent} {use : PoolUse} {dev : Dev}
    (backed : Backed trace use dev) : use.memory.freeTasks = dev.freeTasks := by
  have short : (dev.freeTasks.map PoolNode.entry).length < maxTasks + 1 := by
    have length := backed.lists.length
    rw [List.length_map]
    simp only at length
    omega
  rw [PoolMemory.freeTasks, backed.refines.ring.walk_eq short, List.filterMap_map]
  exact List.filterMap_some

/-- After `task_pool_init` and any sequence of `task_alloc`, `task_free` and stores into
tasks handed out: the free list is a proper ring without duplicates and without tasks
handed out; it and the tasks handed out make up the pool; `task_alloc` returns `NULL`
exactly if all tasks are handed out, and else a task of zeros with an id; and tasks are
handed out in the order in which they came onto the list. -/
theorem task_pool_sound (trace : List UseEvent) (use : PoolUse)
    (run : useMachine.Run trace use) : PoolSound trace use := by
  obtain ⟨dev, backed⟩ := backed_of_run run
  have isFree := backed.freeTasks_eq
  obtain ⟨refines, lists, order⟩ := backed
  obtain ⟨freeNodup, heldNodup, apart⟩ := List.nodup_append.mp lists.nodup
  have count := lists.length
  constructor
  · rw [isFree]
    exact refines.ring
  · rw [isFree]
    exact freeNodup
  · intro slot free held
    rw [isFree] at free
    exact apart slot free slot held rfl
  · exact heldNodup
  · rw [isFree]
    exact count
  · rcases refines.taskAlloc with
      ⟨exhausted, returned⟩ | ⟨slot, rest, after, free, returned, zeroed, next, prev, -⟩
    · refine ⟨none, use.memory, returned, ?_, by simp⟩
      simp only [exhausted, List.length_nil, Nat.zero_add] at count
      simpa using count
    · refine ⟨some slot, after, returned, ?_, ?_⟩
      · simp only [free, List.length_cons] at count
        simp only [reduceCtorEq, false_iff]
        omega
      · rintro _ ⟨⟩
        exact ⟨by rw [zeroed], next, prev⟩
  · intro slot held
    obtain ⟨after, freed, -⟩ := refines.taskFree (lists.not_free_of_held held)
    exact ⟨after, freed⟩
  · rw [isFree]
    exact order

/-- The zeroed memory of `devm_kzalloc`. -/
def PoolMemory.zero : PoolMemory where
  tasks := fun _ => Task.zero
  links := ⟨fun _ => .null, fun _ => .null⟩
  nextTaskId := 0

/-- The same after `task_pool_init`. -/
def PoolUse.fresh : PoolUse where
  memory := PoolMemory.zero.prepare.taskPoolInit.get (by decide +kernel)
  handedOut := []

theorem PoolUse.fresh_initial : useMachine.Initial PoolUse.fresh :=
  ⟨PoolMemory.zero, by simp only [PoolUse.fresh, Option.some_get], rfl⟩

/-- Two tasks are handed out; the first is written to and freed, and a third is handed
out. -/
def reuseCalls : List UseCall :=
  [.alloc, .store 0 { Task.zero with id := 7, state := .running, done := true } .poison1 .null,
    .alloc, .free 0, .alloc]

theorem task_pool_sound_reused :
    ∃ trace use, useMachine.execute reuseCalls PoolUse.fresh = some (trace, use) ∧
      allocatedSlots trace = [0, 1, 2] ∧ freedSlots trace = [0] ∧ use.handedOut = [1, 2] ∧
      PoolSound trace use := by
  have enabled : (useMachine.execute reuseCalls PoolUse.fresh).isSome := by decide +kernel
  obtain ⟨⟨trace, use⟩, executed⟩ := Option.isSome_iff_exists.mp enabled
  have outcome : ((useMachine.execute reuseCalls PoolUse.fresh).map fun result =>
      (allocatedSlots result.1, freedSlots result.1, result.2.handedOut)) =
        some ([0, 1, 2], [0], [1, 2]) := by decide +kernel
  rw [executed, Option.map_some, Option.some.injEq, Prod.mk.injEq, Prod.mk.injEq] at outcome
  exact ⟨trace, use, executed, outcome.1, outcome.2.1, outcome.2.2, task_pool_sound trace use
    ⟨PoolUse.fresh, PoolUse.fresh_initial, Machine.steps_of_execute executed⟩⟩

end CortexForge
