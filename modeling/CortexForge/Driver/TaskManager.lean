import Mathlib.Data.Fintype.Basic
import CortexForge.Driver.Uapi

/-!
Contract: the task pool as one caller sees it.

Source: `src/task_manager.c`. Each function runs here without interruption; the
machine that cuts the same functions into atomic steps lives under
`Concurrent`.

Owns: pool initialisation, allocation, release, submission, lookup by id, query
and cancellation.

Does not own: copying to and from user space.
-/

namespace CortexForge

/-- The body of the loop of `task_pool_init`. -/
def taskPoolInitSlot (dev : Dev) (slot : Slot) : Dev :=
  let dev := dev.modifyTask slot fun task => { task with state := .free, done := false }
  { dev with freeTasks := dev.freeTasks ++ [slot] }

/-- `task_pool_init`. -/
def taskPoolInit (dev : Dev) : Dev :=
  (List.finRange maxTasks).foldl taskPoolInitSlot dev

/-- `task_alloc`: `none` is the `NULL` of an exhausted pool. -/
def taskAlloc (dev : Dev) : Option (Slot × Dev) :=
  match dev.freeTasks with
  | [] => none
  | slot :: rest =>
      some (slot,
        { dev with
          tasks := Function.update dev.tasks slot { Task.zero with id := dev.nextTaskId + 1 }
          freeTasks := rest
          nextTaskId := dev.nextTaskId + 1 })

/-- `task_free`. -/
def taskFree (slot : Slot) (dev : Dev) : Dev :=
  let dev := dev.modifyTask slot fun task => { task with state := .free }
  { dev with freeTasks := dev.freeTasks ++ [slot] }

/-- `task_submit` at clock value `now`. -/
def taskSubmit (now : UInt64) (slot : Slot) (accel : AccelIndex) (dev : Dev) : Int × Dev :=
  if numAccelerators ≤ (dev.tasks slot).accelType.toNat then
    (Errno.einval.ret, dev)
  else
    let dev := dev.modifyTask slot fun task => { task with state := .pending }
    let dev := dev.modifyTask slot fun task => { task with submitJiffies := now }
    let dev := dev.modifyAccel accel fun accel =>
      { accel with taskQueue := accel.taskQueue ++ [slot] }
    let dev := dev.modifyAccel accel fun accel =>
      { accel with workWait := accel.workWait.wakeUp }
    (0, dev)

/-- The test by which `task_query` and `task_cancel` recognise a task. -/
def Task.matchesId (task : Task) (taskId : UInt32) : Bool :=
  task.id == taskId && task.state != .free

/-- The scan of `task_query` and `task_cancel`: the first matching slot. -/
def findTask (dev : Dev) (taskId : UInt32) : Option Slot :=
  (List.finRange maxTasks).find? fun slot => (dev.tasks slot).matchesId taskId

/-- The `exec_usec` expression of `task_query`, in `unsigned long` arithmetic. -/
def execUsec (kernel : Kernel) (task : Task) : UInt64 :=
  (task.completeJiffies - task.submitJiffies) * 1000000 / kernel.hz

/-- The status structure `task_query` fills after its `memset`. -/
def taskStatus (kernel : Kernel) (task : Task) : TaskStatus where
  taskId := task.id
  status := task.state.code
  execUsec := execUsec kernel task
  errorCode := task.errorCode
  reserved := fun _ => 0

/-- `task_query` up to its `copy_to_user`: the status it is about to copy, or
`none` for `-ENOENT`. -/
def taskQuery (kernel : Kernel) (dev : Dev) (taskId : UInt32) : Option TaskStatus :=
  (findTask dev taskId).map fun slot => taskStatus kernel (dev.tasks slot)

/-- The three stores of `task_cancel`. -/
def cancelTask (task : Task) : Task :=
  { task with state := .cancelled, errorCode := ecanceledCode, done := true }

/-- `task_cancel`. -/
def taskCancel (dev : Dev) (taskId : UInt32) : Int × Dev :=
  match findTask dev taskId with
  | some slot => (0, dev.modifyTask slot cancelTask)
  | none => (Errno.enoent.ret, dev)

/-! ## Pool initialisation -/

private theorem taskPoolInit_fold (slots : List Slot) (dev : Dev) :
    slots.foldl taskPoolInitSlot dev =
      { dev with
        tasks := fun slot =>
          if slot ∈ slots then { dev.tasks slot with state := .free, done := false }
          else dev.tasks slot
        freeTasks := dev.freeTasks ++ slots } := by
  induction slots generalizing dev with
  | nil => simp
  | cons head tail inductionHypothesis =>
      rw [List.foldl_cons, inductionHypothesis]
      ext1
      · funext slot
        by_cases isHead : slot = head
        · subst slot
          simp [taskPoolInitSlot]
        · simp [taskPoolInitSlot, Dev.modifyTask, isHead]
      · simp [taskPoolInitSlot]
      · rfl
      · rfl

/-- The pool after its initialisation: every slot is free, and the free list
holds the slots in order. -/
theorem taskPoolInit_eq (dev : Dev) :
    taskPoolInit dev =
      { dev with
        tasks := fun slot => { dev.tasks slot with state := .free, done := false }
        freeTasks := dev.freeTasks ++ List.finRange maxTasks } := by
  unfold taskPoolInit
  rw [taskPoolInit_fold]
  simp only [List.mem_finRange, ↓reduceIte]

/-! ## Allocation -/

theorem taskAlloc_cons {dev : Dev} {slot : Slot} {rest : List Slot}
    (free : dev.freeTasks = slot :: rest) :
    taskAlloc dev = some (slot,
      { dev with
        tasks := Function.update dev.tasks slot { Task.zero with id := dev.nextTaskId + 1 }
        freeTasks := rest
        nextTaskId := dev.nextTaskId + 1 }) := by
  simp only [taskAlloc, free]

/-! ## Lookup -/

@[simp] theorem Task.matchesId_eq_true {task : Task} {taskId : UInt32} :
    task.matchesId taskId = true ↔ task.id = taskId ∧ task.state ≠ .free := by
  simp [Task.matchesId]

/-- A found slot holds the id and is not free. -/
theorem findTask_some {dev : Dev} {taskId : UInt32} {slot : Slot}
    (found : findTask dev taskId = some slot) :
    (dev.tasks slot).id = taskId ∧ (dev.tasks slot).state ≠ .free := by
  have matched := List.find?_some found
  simpa using matched

/-- The lookup fails exactly when no slot that is not free holds the id. -/
theorem findTask_eq_none {dev : Dev} {taskId : UInt32} :
    findTask dev taskId = none ↔
      ∀ slot, (dev.tasks slot).id = taskId → (dev.tasks slot).state = .free := by
  unfold findTask
  rw [List.find?_eq_none]
  constructor
  · intro absent slot sameId
    by_contra notFree
    exact absent slot (List.mem_finRange slot) (by simp [sameId, notFree])
  · intro absent slot _ matched
    rw [Task.matchesId_eq_true] at matched
    exact matched.2 (absent slot matched.1)

/-- The lookup returns the first match. -/
theorem findTask_eq_some_of_first {dev : Dev} {taskId : UInt32} {slot : Slot}
    (matched : (dev.tasks slot).matchesId taskId = true)
    (first : ∀ other, other.val < slot.val → (dev.tasks other).matchesId taskId = false) :
    findTask dev taskId = some slot := by
  unfold findTask
  rw [List.find?_eq_some_iff_getElem]
  refine ⟨matched, slot.val, by simp, by simp, ?_⟩
  intro index before
  rw [List.getElem_finRange]
  have earlier := first ⟨index, by omega⟩ before
  simpa using earlier

/-- Where only one slot can hold the id, the lookup finds it. -/
theorem findTask_eq_some_of_unique {dev : Dev} {taskId : UInt32} {slot : Slot}
    (sameId : (dev.tasks slot).id = taskId) (notFree : (dev.tasks slot).state ≠ .free)
    (unique : ∀ other, (dev.tasks other).id = taskId →
      (dev.tasks other).state ≠ .free → other = slot) :
    findTask dev taskId = some slot := by
  cases found : findTask dev taskId with
  | none => exact absurd (findTask_eq_none.mp found slot sameId) notFree
  | some other =>
      obtain ⟨otherId, otherNotFree⟩ := findTask_some found
      rw [unique other otherId otherNotFree]

end CortexForge
