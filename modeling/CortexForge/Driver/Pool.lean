import Mathlib.Data.Set.Function
import CortexForge.Foundation.Machine
import CortexForge.Driver.AccelManager

/-!
Contract: the task pool under any sequence of `task_alloc` and `task_free`.

The callers of the pool are one machine: each call is a step, and `task_free` is only
called on a task that is handed out. The tasks handed out are kept beside the device,
because the pool itself forgets them.

Owns: the machine, its lists, and how long the ids of the tasks handed out at one time
are unique. The ids come from a 32-bit counter, which comes back to 0.

Does not own: what the driver does with a task between the two calls.
-/

namespace CortexForge

open CortexForge.Foundation

/-- The pool and the tasks handed out, oldest first. -/
structure Pool where
  dev : Dev
  handedOut : List Slot

/-- The calls of the interface. -/
inductive PoolCall where
  | alloc
  | free (slot : Slot)

/-- What a call did. -/
inductive PoolEvent where
  | allocated (slot : Slot)
  | exhausted
  | freed (slot : Slot)
deriving DecidableEq

/-- The pool after `task_alloc` has taken the head of the free list. -/
def Pool.allocate (pool : Pool) (slot : Slot) (rest : List Slot) : Pool :=
  ⟨{ pool.dev with
      tasks := Function.update pool.dev.tasks slot
        { Task.zero with id := pool.dev.nextTaskId + 1 }
      freeTasks := rest
      nextTaskId := pool.dev.nextTaskId + 1 },
    pool.handedOut ++ [slot]⟩

/-- The pool after `task_free`. -/
def Pool.release (pool : Pool) (slot : Slot) : Pool :=
  ⟨taskFree slot pool.dev, pool.handedOut.erase slot⟩

def poolStep : PoolCall → Pool → Option (PoolEvent × Pool)
  | .alloc, pool =>
      match taskAlloc pool.dev with
      | none => some (.exhausted, pool)
      | some (slot, dev) => some (.allocated slot, ⟨dev, pool.handedOut ++ [slot]⟩)
  | .free slot, pool =>
      if slot ∈ pool.handedOut then
        some (.freed slot, pool.release slot)
      else none

/-- A pool that `task_pool_init` has initialised, with the id counter at 0. -/
def Pool.init (dev : Dev) : Pool :=
  ⟨taskPoolInit { dev with freeTasks := [], nextTaskId := 0 }, []⟩

def poolMachine : Machine Pool PoolCall PoolEvent where
  Initial := fun pool => ∃ dev, pool = Pool.init dev
  step := poolStep

/-- The number of calls of `task_alloc` that found a free task. -/
def allocations (trace : List PoolEvent) : Nat :=
  trace.countP fun event => match event with
    | .allocated _ => true
    | _ => false

/-- The ids of the tasks handed out. -/
def Pool.ids (pool : Pool) : List UInt32 :=
  pool.handedOut.map fun slot => (pool.dev.tasks slot).id

/-- The tasks handed out have distinct ids, none of them 0. -/
def Pool.UniqueIds (pool : Pool) : Prop := pool.ids.Nodup ∧ 0 ∉ pool.ids

/-! ## One call -/

/-- What a call can do. -/
inductive PoolMove (pool : Pool) : PoolEvent → Pool → Prop
  | allocated (slot : Slot) (rest : List Slot) (free : pool.dev.freeTasks = slot :: rest) :
      PoolMove pool (.allocated slot) (pool.allocate slot rest)
  | exhausted (none : pool.dev.freeTasks = []) : PoolMove pool .exhausted pool
  | freed (slot : Slot) (held : slot ∈ pool.handedOut) :
      PoolMove pool (.freed slot) (pool.release slot)

theorem step_alloc {pool : Pool} {slot : Slot} {rest : List Slot}
    (free : pool.dev.freeTasks = slot :: rest) :
    poolMachine.step .alloc pool = some (.allocated slot, pool.allocate slot rest) := by
  show poolStep .alloc pool = _
  simp only [poolStep, taskAlloc_cons free, Pool.allocate]

theorem step_free {pool : Pool} {slot : Slot} (held : slot ∈ pool.handedOut) :
    poolMachine.step (.free slot) pool = some (.freed slot, pool.release slot) := by
  show poolStep (.free slot) pool = _
  simp only [poolStep, if_pos held]

theorem poolMove_of_step {call : PoolCall} {pool next : Pool} {event : PoolEvent}
    (taken : poolMachine.step call pool = some (event, next)) : PoolMove pool event next := by
  change poolStep call pool = some (event, next) at taken
  cases call with
  | alloc =>
      cases free : pool.dev.freeTasks with
      | nil =>
          simp only [poolStep, taskAlloc, free, Option.some.injEq, Prod.mk.injEq] at taken
          obtain ⟨rfl, rfl⟩ := taken
          exact .exhausted free
      | cons slot rest =>
          simp only [poolStep, taskAlloc_cons free, Option.some.injEq, Prod.mk.injEq] at taken
          obtain ⟨rfl, rfl⟩ := taken
          exact .allocated slot rest free
  | free slot =>
      simp only [poolStep] at taken
      split at taken
      next held =>
        cases taken
        exact .freed slot held
      next => cases taken

/-! ## The lists -/

/-- Every task is either free or handed out, and on one list once. -/
structure Pool.Lists (pool : Pool) : Prop where
  nodup : (pool.dev.freeTasks ++ pool.handedOut).Nodup
  mem : ∀ slot, slot ∈ pool.dev.freeTasks ++ pool.handedOut

theorem Pool.Lists.init (dev : Dev) : (Pool.init dev).Lists := by
  have free : (Pool.init dev).dev.freeTasks = List.finRange maxTasks := by
    simp [Pool.init, taskPoolInit_eq]
  constructor
  · rw [free, show (Pool.init dev).handedOut = [] from rfl, List.append_nil]
    exact List.nodup_finRange maxTasks
  · intro slot
    rw [free]
    exact List.mem_append_left _ (List.mem_finRange slot)

theorem Pool.Lists.step {pool next : Pool} {event : PoolEvent} (lists : pool.Lists)
    (move : PoolMove pool event next) : next.Lists := by
  cases move with
  | exhausted none => exact lists
  | allocated slot rest free =>
      -- The head of the free list goes to the end of the other.
      have moved : (rest ++ (pool.handedOut ++ [slot])).Perm
          (pool.dev.freeTasks ++ pool.handedOut) := by
        rw [free, ← List.append_assoc]
        exact List.perm_append_singleton slot (rest ++ pool.handedOut)
      exact ⟨moved.nodup_iff.mpr lists.nodup, fun other => moved.mem_iff.mpr (lists.mem other)⟩
  | freed slot held =>
      have moved : (pool.dev.freeTasks ++ [slot] ++ pool.handedOut.erase slot).Perm
          (pool.dev.freeTasks ++ pool.handedOut) := by
        rw [List.append_assoc]
        exact (List.perm_cons_erase held).symm.append_left _
      exact ⟨moved.nodup_iff.mpr lists.nodup, fun other => moved.mem_iff.mpr (lists.mem other)⟩

theorem poolLists_of_run {trace : List PoolEvent} {pool : Pool}
    (run : poolMachine.Run trace pool) : pool.Lists := by
  refine run.invariant (fun _ => Pool.Lists) ?_ ?_
  · rintro _ ⟨dev, rfl⟩
    exact Pool.Lists.init dev
  · intro trace pool call event next _ lists taken
    exact lists.step (poolMove_of_step taken)

/-! ## Ids -/

@[simp] theorem allocations_snoc (trace : List PoolEvent) (event : PoolEvent) :
    allocations (trace ++ [event]) = allocations trace +
      match event with
      | .allocated _ => 1
      | _ => 0 := by
  cases event <;> simp [allocations]

/-- Each task handed out carries the number of the allocation it comes from, cut to 32
bits. -/
structure Pool.Stamped (count : Nat) (stamp : Slot → Nat) (pool : Pool) : Prop where
  counter : pool.dev.nextTaskId = UInt32.ofNat count
  positive : ∀ slot ∈ pool.handedOut, 0 < stamp slot
  issued : ∀ slot ∈ pool.handedOut, stamp slot ≤ count
  id : ∀ slot ∈ pool.handedOut, (pool.dev.tasks slot).id = UInt32.ofNat (stamp slot)
  injective : Set.InjOn stamp {slot | slot ∈ pool.handedOut}

theorem Pool.Stamped.init (dev : Dev) (stamp : Slot → Nat) : (Pool.init dev).Stamped 0 stamp where
  counter := by simp [Pool.init, taskPoolInit_eq]
  positive := fun _ held => absurd held List.not_mem_nil
  issued := fun _ held => absurd held List.not_mem_nil
  id := fun _ held => absurd held List.not_mem_nil
  injective := fun _ held => absurd held List.not_mem_nil

/-- An allocation stamps its task with the next number. -/
private theorem Pool.Stamped.allocated {pool : Pool} {count : Nat} {stamp : Slot → Nat}
    {slot : Slot} {rest : List Slot} (stamped : pool.Stamped count stamp)
    (fresh : slot ∉ pool.handedOut) :
    (pool.allocate slot rest).Stamped (count + 1)
      (Function.update stamp slot (count + 1)) := by
  have counter : pool.dev.nextTaskId + 1 = UInt32.ofNat (count + 1) := by
    rw [stamped.counter, UInt32.ofNat_add]
    rfl
  have older (other : Slot) (held : other ∈ pool.handedOut) : other ≠ slot :=
    fun same => fresh (same ▸ held)
  have split (other : Slot) (held : other ∈ pool.handedOut ++ [slot]) :
      other ∈ pool.handedOut ∨ other = slot := by
    simpa using held
  refine ⟨counter, fun other held => ?_, fun other held => ?_, fun other held => ?_,
    fun first firstHeld second secondHeld same => ?_⟩
  · rcases split other held with before | rfl
    · rw [Function.update_of_ne (older other before)]
      exact stamped.positive other before
    · rw [Function.update_self]
      exact Nat.succ_pos count
  · rcases split other held with before | rfl
    · rw [Function.update_of_ne (older other before)]
      exact Nat.le_succ_of_le (stamped.issued other before)
    · rw [Function.update_self]
  · rcases split other held with before | rfl
    · simp only [Pool.allocate, Function.update_of_ne (older other before)]
      exact stamped.id other before
    · simp only [Pool.allocate, Function.update_self]
      exact counter
  · rcases split first firstHeld with firstBefore | rfl
    · rcases split second secondHeld with secondBefore | rfl
      · rw [Function.update_of_ne (older first firstBefore),
          Function.update_of_ne (older second secondBefore)] at same
        exact stamped.injective firstBefore secondBefore same
      · -- The new number is larger than every number in use.
        rw [Function.update_of_ne (older first firstBefore), Function.update_self] at same
        have bound := stamped.issued first firstBefore
        omega
    · rcases split second secondHeld with secondBefore | rfl
      · rw [Function.update_self, Function.update_of_ne (older second secondBefore)] at same
        have bound := stamped.issued second secondBefore
        omega
      · rfl

/-- Releasing a task changes no id. -/
private theorem Pool.Stamped.freed {pool : Pool} {count : Nat} {stamp : Slot → Nat}
    (slot : Slot) (stamped : pool.Stamped count stamp) :
    (pool.release slot).Stamped count stamp := by
  have still (other : Slot) (held : other ∈ pool.handedOut.erase slot) :
      other ∈ pool.handedOut := List.mem_of_mem_erase held
  have ids (other : Slot) : ((taskFree slot pool.dev).tasks other).id =
      (pool.dev.tasks other).id := by
    by_cases same : other = slot
    · subst same
      simp [taskFree]
    · simp [taskFree, Dev.modifyTask, same]
  refine ⟨stamped.counter, fun other held => stamped.positive other (still other held),
    fun other held => stamped.issued other (still other held), fun other held => ?_,
    fun first firstHeld second secondHeld same =>
      stamped.injective (still first firstHeld) (still second secondHeld) same⟩
  rw [Pool.release, ids]
  exact stamped.id other (still other held)

theorem stamped_of_run {trace : List PoolEvent} {pool : Pool}
    (run : poolMachine.Run trace pool) : ∃ stamp, pool.Stamped (allocations trace) stamp := by
  refine run.invariant (fun trace pool => ∃ stamp, pool.Stamped (allocations trace) stamp) ?_ ?_
  · rintro _ ⟨dev, rfl⟩
    exact ⟨fun _ => 0, Pool.Stamped.init dev _⟩
  · rintro trace pool call event next reached ⟨stamp, stamped⟩ taken
    cases poolMove_of_step taken with
    | exhausted none => exact ⟨stamp, by simpa using stamped⟩
    | freed slot held => exact ⟨stamp, by simpa using stamped.freed slot⟩
    | allocated slot rest free =>
        refine ⟨Function.update stamp slot (allocations trace + 1), ?_⟩
        have nodup := (poolLists_of_run reached).nodup
        rw [free] at nodup
        have fresh : slot ∉ pool.handedOut := fun held =>
          (List.nodup_cons.mp nodup).1 (List.mem_append_right _ held)
        rw [allocations_snoc]
        exact stamped.allocated fresh

/-- Before the counter has come back to 0, the numbers and the ids are the same thing. -/
theorem Pool.Stamped.uniqueIds {pool : Pool} {count : Nat} {stamp : Slot → Nat}
    (stamped : pool.Stamped count stamp) (lists : pool.Lists) (early : count < UInt32.size) :
    pool.UniqueIds := by
  have value (slot : Slot) (held : slot ∈ pool.handedOut) :
      (pool.dev.tasks slot).id.toNat = stamp slot := by
    rw [stamped.id slot held]
    exact UInt32.toNat_ofNat_of_lt (Nat.lt_of_le_of_lt (stamped.issued slot held) early)
  constructor
  · refine List.Nodup.map_on ?_ (List.nodup_append.mp lists.nodup).2.1
    intro first firstHeld second secondHeld same
    refine stamped.injective firstHeld secondHeld ?_
    rw [← value first firstHeld, ← value second secondHeld, same]
  · intro zero
    obtain ⟨slot, held, isZero⟩ := List.mem_map.mp zero
    have positive := stamped.positive slot held
    rw [← value slot held, isZero] at positive
    exact absurd positive (by decide)

/-- The allocation with which the counter comes back to 0 hands out the id 0. -/
private theorem zero_of_wrap {trace : List PoolEvent} {pool next : Pool} {event : PoolEvent}
    (run : poolMachine.Run trace pool) (move : PoolMove pool event next)
    (before : allocations trace < UInt32.size)
    (after : UInt32.size ≤ allocations (trace ++ [event])) : 0 ∈ next.ids := by
  obtain ⟨stamp, stamped⟩ := stamped_of_run run
  cases move with
  | exhausted none =>
      rw [allocations_snoc] at after
      exact absurd after (Nat.not_le.mpr before)
  | freed slot held =>
      rw [allocations_snoc] at after
      exact absurd after (Nat.not_le.mpr before)
  | allocated slot rest free =>
      have reached : UInt32.size ≤ allocations trace + 1 := by
        rw [allocations_snoc] at after
        exact after
      have last : allocations trace = UInt32.size - 1 := by omega
      refine List.mem_map.mpr ⟨slot, List.mem_append_right _ List.mem_cons_self, ?_⟩
      simp only [Pool.allocate, Function.update_self]
      rw [stamped.counter, last]
      rfl

/-- Sooner or later a long run hands out the id 0. -/
private theorem zero_of_long {start : Pool} (initial : poolMachine.Initial start)
    {trace : List PoolEvent} {finish : Pool} (steps : poolMachine.Steps start trace finish)
    (long : UInt32.size ≤ allocations trace) :
    ∃ middle, poolMachine.Through start trace finish middle ∧ 0 ∈ middle.ids := by
  induction steps with
  | refl => exact absurd long (by decide)
  | @snoc pool next events event call sofar _ taken inductionHypothesis =>
      by_cases already : UInt32.size ≤ allocations events
      · obtain ⟨middle, through, zero⟩ := inductionHypothesis already
        exact ⟨middle, through.snoc taken, zero⟩
      · refine ⟨next, (Machine.Steps.snoc sofar taken).through_last, ?_⟩
        exact zero_of_wrap ⟨start, initial, sofar⟩ (poolMove_of_step taken)
          (Nat.not_le.mp already) long

theorem allocations_append (before after : List PoolEvent) :
    allocations (before ++ after) = allocations before + allocations after :=
  List.countP_append

/-- The ids of the tasks handed out are unique and not 0 in every state of a run
exactly when fewer than 2 ^ 32 of its allocations found a task. -/
theorem uniqueIds_iff (start : Pool) (initial : poolMachine.Initial start)
    (trace : List PoolEvent) (finish : Pool) (steps : poolMachine.Steps start trace finish) :
    (∀ middle, poolMachine.Through start trace finish middle → middle.UniqueIds) ↔
      allocations trace < UInt32.size := by
  constructor
  · intro unique
    by_contra long
    obtain ⟨middle, through, zero⟩ := zero_of_long initial steps (Nat.not_lt.mp long)
    exact (unique middle through).2 zero
  · rintro short middle ⟨before, after, rfl, reaches, -⟩
    have run : poolMachine.Run before middle := ⟨start, initial, reaches⟩
    obtain ⟨stamp, stamped⟩ := stamped_of_run run
    rw [allocations_append] at short
    exact stamped.uniqueIds (poolLists_of_run run) (by omega)

/-- Any number of tasks can be handed out one after the other. -/
private theorem run_of_count (dev : Dev) (count : Nat) :
    ∃ trace pool slot, poolMachine.Steps (Pool.init dev) trace pool ∧
      pool.handedOut = [slot] ∧ allocations trace = count + 1 := by
  have next {trace : List PoolEvent} {pool : Pool}
      (steps : poolMachine.Steps (Pool.init dev) trace pool) (none : pool.handedOut = []) :
      ∃ slot rest, pool.dev.freeTasks = slot :: rest := by
    have lists := poolLists_of_run (⟨_, ⟨dev, rfl⟩, steps⟩ : poolMachine.Run trace pool)
    refine List.exists_cons_of_ne_nil fun exhausted => ?_
    have listed := lists.mem 0
    rw [exhausted, none] at listed
    cases listed
  induction count with
  | zero =>
      obtain ⟨slot, rest, free⟩ := next (Machine.Steps.refl _) rfl
      exact ⟨_, _, slot, Machine.Steps.single .alloc (step_alloc free), rfl, rfl⟩
  | succ count inductionHypothesis =>
      obtain ⟨trace, pool, slot, steps, held, counted⟩ := inductionHypothesis
      have released := steps.snoc (step_free (by rw [held]; exact List.mem_cons_self))
      have none : (pool.release slot).handedOut = [] := by simp [Pool.release, held]
      obtain ⟨other, rest, free⟩ := next released none
      refine ⟨_, _, other, released.snoc (step_alloc free), by simp [Pool.allocate, none], ?_⟩
      simp only [allocations_snoc, counted, Nat.add_zero]

theorem uniqueIds_third :
    ∃ trace pool slot, poolMachine.Steps (Pool.init Dev.zero) trace pool ∧
      pool.handedOut = [slot] ∧ pool.UniqueIds := by
  obtain ⟨trace, pool, slot, steps, held, counted⟩ := run_of_count Dev.zero 2
  have unique := (uniqueIds_iff (Pool.init Dev.zero) ⟨Dev.zero, rfl⟩ trace pool steps).mpr
    (by rw [counted]; decide)
  exact ⟨trace, pool, slot, steps, held, unique pool steps.through_last⟩

/-- After 2 ^ 32 - 1 tasks have been handed out and released one after the other, the
next task gets the id 0. -/
theorem wrapped_id_handed_out :
    ¬ ∀ trace pool, poolMachine.Run trace pool → pool.UniqueIds := by
  intro unique
  obtain ⟨trace, pool, slot, steps, held, counted⟩ := run_of_count Dev.zero (UInt32.size - 1)
  have long : UInt32.size ≤ allocations trace := by
    rw [counted]
    decide
  obtain ⟨middle, ⟨before, after, -, reaches, -⟩, zero⟩ :=
    zero_of_long ⟨Dev.zero, rfl⟩ steps long
  exact (unique before middle ⟨_, ⟨Dev.zero, rfl⟩, reaches⟩).2 zero

end CortexForge
