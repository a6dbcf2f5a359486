import CortexForge.Concurrent.Placement

/-!
Contract: task ids name submissions.

`atomic_inc_return` counts allocations, and a slot leaves the free list for good
when it is allocated, so the counter stays far from wrapping. From this the ids
in use are nonzero and distinct, and the history records for each of them the
one submission that received it.

Owns: the id invariant over runs, and what it says about the slots a lookup can
find.
-/

namespace CortexForge.Concurrent

open CortexForge.Foundation

/-- The invariant of the id counter and of the ids in use. -/
structure Ids (trace : List Event) (dev : Dev) : Prop where
  counter : dev.nextTaskId.toNat + dev.freeTasks.length = maxTasks
  range : ∀ slot, (ledger trace slot).point ≠ .free →
    0 < (ledger trace slot).taskId.toNat ∧
      (ledger trace slot).taskId.toNat ≤ dev.nextTaskId.toNat
  distinct : ∀ first second, (ledger trace first).point ≠ .free →
    (ledger trace second).point ≠ .free →
    (ledger trace first).taskId = (ledger trace second).taskId → first = second
  recorded : ∀ slot, (ledger trace slot).point ≠ .free →
    ∃ thread, ⟨.client thread,
      .alloc slot (ledger trace slot).taskId (ledger trace slot).desc⟩ ∈ trace
  registered : ∀ actor slot taskId desc, ⟨actor, .alloc slot taskId desc⟩ ∈ trace →
    (ledger trace slot).point ≠ .free ∧ (ledger trace slot).taskId = taskId ∧
      (ledger trace slot).desc = desc

theorem Ids.initial : Ids [] probe where
  counter := by
    rw [probe_nextTaskId, probe_freeTasks, List.length_finRange]
    rfl
  range := fun _ allocated => absurd rfl allocated
  distinct := fun _ _ allocated => absurd rfl allocated
  recorded := fun _ allocated => absurd rfl allocated
  registered := nofun

/-- Allocation takes the head of the free list and the next id. -/
theorem Stepped.alloc {kernel : Kernel} {system next : System} {actor : Actor} {slot : Slot}
    {taskId : UInt32} {desc : TaskDesc}
    (stepped : Stepped kernel system ⟨actor, .alloc slot taskId desc⟩ next) :
    ∃ thread rest, actor = .client thread ∧ system.dev.freeTasks = slot :: rest ∧
      taskId = system.dev.nextTaskId + 1 := by
  cases stepped with
  | client thread input action pc taken =>
      have move := clientMove_of_step thread taken
      generalize system.clients thread = before at move
      cases move with
      | quiet noSlot same => cases noSlot
      | alloc desc accel slot rest free => exact ⟨thread, rest, rfl, free, rfl⟩
  | worker accel expired action pc taken =>
      have move := workerMove_of_step taken
      generalize system.workers accel = before at move
      cases move with
      | quiet noSlot same => cases noSlot
  | stopper action pc taken => cases stopperStep_slot taken

/-- A step takes a slot off the free list for a submission, or allocates nothing. -/
theorem Stepped.alloc_or_not {kernel : Kernel} {system next : System} {event : Event}
    (stepped : Stepped kernel system event next) :
    (∃ thread slot rest desc, system.dev.freeTasks = slot :: rest ∧
        event = ⟨.client thread, .alloc slot (system.dev.nextTaskId + 1) desc⟩) ∨
      ∀ slot taskId desc, event.action ≠ .alloc slot taskId desc := by
  by_cases isAlloc : ∃ slot taskId desc, event.action = .alloc slot taskId desc
  · obtain ⟨slot, taskId, desc, isAlloc⟩ := isAlloc
    obtain ⟨actor, action⟩ := event
    cases isAlloc
    obtain ⟨thread, rest, rfl, free, rfl⟩ := stepped.alloc
    exact Or.inl ⟨thread, slot, rest, desc, free, rfl⟩
  · refine Or.inr ?_
    intro slot taskId desc same
    exact isAlloc ⟨slot, taskId, desc, same⟩

section Step

variable {trace : List Event} {dev : Dev} {event : Event}

/-- Every event but an allocation keeps the id invariant. -/
private theorem Ids.keep (ids : Ids trace dev)
    (enabled : ∀ slot, Enabled slot (ledger trace slot) event)
    (notAlloc : ∀ slot taskId desc, event.action ≠ .alloc slot taskId desc) :
    Ids (trace ++ [event]) (event.action.apply dev) := by
  obtain ⟨counterKept, freeKept⟩ :=
    Action.keeps_pool notAlloc (fun slot => (enabled slot).not_free) dev
  -- The life of a slot keeps its submission, and a free slot stays free.
  have kept (slot : Slot) (allocated : (ledger (trace ++ [event]) slot).point ≠ .free) :
      (ledger trace slot).point ≠ .free ∧
        (ledger (trace ++ [event]) slot).taskId = (ledger trace slot).taskId ∧
        (ledger (trace ++ [event]) slot).desc = (ledger trace slot).desc := by
    rw [ledger_snoc] at allocated ⊢
    have wasAllocated : (ledger trace slot).point ≠ .free := by
      intro free
      refine allocated ?_
      have := enabled slot
      cases this with
      | alloc thread taskId desc point => exact absurd rfl (notAlloc slot taskId desc)
      | elsewhere _ other => rw [Life.after_other _ other, free]
      | _ => simp_all [Point.Visible, Point.state]
    exact ⟨wasAllocated, ((enabled slot).keeps_submission wasAllocated).2⟩
  constructor
  · rw [counterKept, freeKept]
    exact ids.counter
  · intro slot allocated
    obtain ⟨wasAllocated, sameId, -⟩ := kept slot allocated
    rw [counterKept, sameId]
    exact ids.range slot wasAllocated
  · intro first second firstAllocated secondAllocated same
    obtain ⟨firstWas, firstId, -⟩ := kept first firstAllocated
    obtain ⟨secondWas, secondId, -⟩ := kept second secondAllocated
    exact ids.distinct first second firstWas secondWas (by rw [← firstId, ← secondId, same])
  · intro slot allocated
    obtain ⟨wasAllocated, sameId, sameDesc⟩ := kept slot allocated
    obtain ⟨thread, member⟩ := ids.recorded slot wasAllocated
    rw [sameId, sameDesc]
    exact ⟨thread, List.mem_append_left _ member⟩
  · intro actor slot taskId desc member
    rcases List.mem_append.mp member with before | isEvent
    · obtain ⟨allocated, sameId, sameDesc⟩ := ids.registered actor slot taskId desc before
      obtain ⟨still, keptId, keptDesc⟩ := (enabled slot).keeps_submission allocated
      rw [← ledger_snoc] at still keptId keptDesc
      exact ⟨still, keptId.trans sameId, keptDesc.trans sameDesc⟩
    · rw [List.mem_singleton] at isEvent
      exact absurd (by rw [← isEvent]) (notAlloc slot taskId desc)

/-- The counter cannot wrap while a slot is free. -/
theorem Ids.next_toNat (ids : Ids trace dev) {slot : Slot} {rest : List Slot}
    (free : dev.freeTasks = slot :: rest) :
    (dev.nextTaskId + 1).toNat = dev.nextTaskId.toNat + 1 := by
  have counter := ids.counter
  rw [free, List.length_cons] at counter
  have small : dev.nextTaskId.toNat + 1 ≤ 256 := by
    have : maxTasks = 256 := rfl
    omega
  rw [UInt32.toNat_add]
  exact Nat.mod_eq_of_lt (by simp; omega)

/-- An allocation adds one submission with a fresh id. -/
private theorem Ids.alloc (ids : Ids trace dev) {thread : Nat} {slot : Slot} {rest : List Slot}
    {desc : TaskDesc} (free : dev.freeTasks = slot :: rest)
    (point : (ledger trace slot).point = .free) :
    Ids (trace ++ [⟨.client thread, .alloc slot (dev.nextTaskId + 1) desc⟩])
      ((Action.alloc slot (dev.nextTaskId + 1) desc).apply dev) := by
  have next := ids.next_toNat free
  have mine : ledger (trace ++ [⟨.client thread, .alloc slot (dev.nextTaskId + 1) desc⟩]) slot =
      ⟨.allocated thread, dev.nextTaskId + 1, desc⟩ := ledger_of_about rfl
  have others (other : Slot) (different : other ≠ slot) :
      ledger (trace ++ [⟨.client thread, .alloc slot (dev.nextTaskId + 1) desc⟩]) other =
        ledger trace other :=
    ledger_of_elsewhere (by simpa [Action.slot?] using Ne.symm different)
  have counter : ((Action.alloc slot (dev.nextTaskId + 1) desc).apply dev).nextTaskId =
      dev.nextTaskId + 1 := rfl
  -- The new id is above every id in use.
  have fresh (other : Slot) (allocated : (ledger trace other).point ≠ .free) :
      (ledger trace other).taskId ≠ dev.nextTaskId + 1 := by
    intro same
    have bound := (ids.range other allocated).2
    rw [same, next] at bound
    omega
  constructor
  · rw [counter, next, Action.apply_freeTasks]
    have before := ids.counter
    simp only [free, List.erase_cons_head]
    rw [free, List.length_cons] at before
    omega
  · intro other allocated
    rw [counter, next]
    by_cases same : other = slot
    · rw [same, mine, next]
      omega
    · rw [others other same] at allocated ⊢
      have bound := ids.range other allocated
      omega
  · intro first second firstAllocated secondAllocated sameId
    by_cases isFirst : first = slot
    · by_cases isSecond : second = slot
      · rw [isFirst, isSecond]
      · rw [others second isSecond] at secondAllocated sameId
        rw [isFirst, mine] at sameId
        exact absurd sameId.symm (fresh second secondAllocated)
    · rw [others first isFirst] at firstAllocated sameId
      by_cases isSecond : second = slot
      · rw [isSecond, mine] at sameId
        exact absurd sameId (fresh first firstAllocated)
      · rw [others second isSecond] at secondAllocated sameId
        exact ids.distinct first second firstAllocated secondAllocated sameId
  · intro other allocated
    by_cases same : other = slot
    · rw [same, mine]
      exact ⟨thread, by simp⟩
    · rw [others other same] at allocated ⊢
      obtain ⟨submitter, member⟩ := ids.recorded other allocated
      exact ⟨submitter, List.mem_append_left _ member⟩
  · intro actor other taskId other' member
    rcases List.mem_append.mp member with before | isEvent
    · have was := ids.registered actor other taskId other' before
      have different : other ≠ slot := by
        rintro rfl
        exact was.1 point
      rw [others other different]
      exact was
    · simp only [List.mem_singleton, Event.mk.injEq, Action.alloc.injEq] at isEvent
      obtain ⟨-, rfl, rfl, rfl⟩ := isEvent
      rw [mine]
      exact ⟨(fun isFree => by cases isFree), rfl, rfl⟩

end Step

/-- The id invariant holds along every run. -/
theorem ids_of_run {kernel : Kernel} {trace : List Event} {system : System}
    (run : (machine kernel).Run trace system) : Ids trace system.dev := by
  refine run.invariant (fun trace system => Ids trace system.dev) ?_ ?_
  · rintro _ ⟨ticks, rfl⟩
    exact Ids.initial
  · intro trace system label event next run ids taken
    have stepped := stepped_of_step taken
    have inv := inv_of_run run
    rw [stepped.dev]
    rcases stepped.alloc_or_not with ⟨thread, slot, rest, desc, free, rfl⟩ | notAlloc
    · exact ids.alloc free (inv.point_of_free (by rw [free]; exact List.mem_cons_self))
    · exact ids.keep (inv.enabled stepped) notAlloc

end CortexForge.Concurrent
