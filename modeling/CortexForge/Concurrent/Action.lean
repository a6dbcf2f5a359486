import CortexForge.Driver.Chardev

/-!
Contract: the atomic actions of the driver on its shared memory.

Every step of every thread performs one of these. A section under `task_lock`
or under an accelerator's mutex is one action; outside the locks every field
store is an action of its own. Loads are not actions: a step makes at most one
load of memory that another thread may be writing, and what it loads for later
use stays in the program counter.

Assumed: plain accesses take effect one at a time, in the order of the source.
A compiler or a processor that reorders them, or an access seen in parts, is
outside this model.

Two sequences of plain stores are one action because no other thread can tell
them apart. The `memset` and id store of `task_alloc`: without `task_lock` a
slot is loaded by the lookups only, its id first and then its state; the id of
a free slot is 0 until the last of these stores, and its state is `FREE`
throughout. The seven payload stores of the SUBMIT handler: only the worker
loads them, after the slot has been queued.

Owns: the actions, their effect on the device, and the events a run records.
-/

namespace CortexForge.Concurrent

/-- One store, or one inseparable group of stores, into a task slot. -/
inductive Store where
  | fill (desc : TaskDesc)
  | state (value : TaskState)
  | submitJiffies (now : UInt64)
  | completeJiffies (now : UInt64)
  | errorCode (code : Int32)
  | done
deriving DecidableEq

def Store.apply : Store → Task → Task
  | .fill desc, task => fillTask desc task
  | .state value, task => { task with state := value }
  | .submitJiffies now, task => { task with submitJiffies := now }
  | .completeJiffies now, task => { task with completeJiffies := now }
  | .errorCode code, task => { task with errorCode := code }
  | .done, task => { task with done := true }

theorem Store.apply_id (write : Store) (task : Task) : (write.apply task).id = task.id := by
  cases write <;> rfl

/-- Updates of an accelerator that leave both of its lists alone. -/
inductive Touch where
  | raiseLoad
  | lowerLoad
  | prepareToWait
  | finishWait
  | wakeUp
  | clearRunning
  | requestStop
  | clearThread
deriving DecidableEq

/-- `kthread_stop` wakes the thread as well as setting its flag. -/
def Touch.apply : Touch → Accel → Accel
  | .raiseLoad, accel => { accel with loadPercent := CortexForge.raiseLoad accel.loadPercent }
  | .lowerLoad, accel => { accel with loadPercent := CortexForge.lowerLoad accel.loadPercent }
  | .prepareToWait, accel => { accel with workWait := ⟨true, false⟩ }
  | .finishWait, accel => { accel with workWait := ⟨false, false⟩ }
  | .wakeUp, accel => { accel with workWait := accel.workWait.wakeUp }
  | .clearRunning, accel => { accel with running := false }
  | .requestStop, accel =>
      { accel with shouldStop := true, workWait := accel.workWait.wakeUp }
  | .clearThread, accel => { accel with workerThread := .null }

/-- The actions. `alloc` carries the descriptor of the submission it serves;
the update ignores it, and the history of a run reads it. -/
inductive Action where
  | tau
  | alloc (slot : Slot) (taskId : UInt32) (desc : TaskDesc)
  | free (slot : Slot)
  | store (slot : Slot) (write : Store)
  | enqueue (accel : AccelIndex) (slot : Slot)
  | dequeue (accel : AccelIndex) (slot : Slot)
  | unlink (accel : AccelIndex) (slot : Slot)
  | touch (accel : AccelIndex) (update : Touch)
deriving DecidableEq

namespace Action

/-- The effect of an action on the device. -/
def apply : Action → Dev → Dev
  | .tau, dev => dev
  | .alloc slot taskId _, dev =>
      { dev with
        tasks := Function.update dev.tasks slot { Task.zero with id := taskId }
        freeTasks := dev.freeTasks.erase slot
        nextTaskId := taskId }
  | .free slot, dev => taskFree slot dev
  | .store slot write, dev => dev.modifyTask slot write.apply
  | .enqueue index slot, dev =>
      dev.modifyAccel index fun accel =>
        { accel with taskQueue := accel.taskQueue ++ [slot] }
  | .dequeue index slot, dev =>
      dev.modifyAccel index fun accel =>
        { accel with
          taskQueue := accel.taskQueue.erase slot
          activeTasks := accel.activeTasks ++ [slot] }
  | .unlink index slot, dev =>
      dev.modifyAccel index fun accel =>
        { accel with activeTasks := accel.activeTasks.erase slot }
  | .touch index update, dev => dev.modifyAccel index update.apply

/-- The slot an action is about. -/
def slot? : Action → Option Slot
  | .alloc slot _ _ => some slot
  | .free slot => some slot
  | .store slot _ => some slot
  | .enqueue _ slot => some slot
  | .dequeue _ slot => some slot
  | .unlink _ slot => some slot
  | .tau => none
  | .touch _ _ => none

/-- The effect of an action on the slot it is about. -/
def onTask : Action → Task → Task
  | .alloc _ taskId _, _ => { Task.zero with id := taskId }
  | .free _, task => { task with state := .free }
  | .store _ write, task => write.apply task
  | _, task => task

/-- An action changes at most the contents of the slot it is about. -/
theorem apply_tasks (action : Action) (dev : Dev) (slot : Slot) :
    (action.apply dev).tasks slot =
      if action.slot? = some slot then action.onTask (dev.tasks slot)
      else dev.tasks slot := by
  cases action with
  | tau => simp [apply, slot?]
  | enqueue _ _ => simp [apply, onTask]
  | dequeue _ _ => simp [apply, onTask]
  | unlink _ _ => simp [apply, onTask]
  | touch _ _ => simp [apply, slot?]
  | alloc target taskId desc =>
      by_cases same : target = slot
      · subst same
        simp [apply, slot?, onTask]
      · simp [apply, slot?, same, Ne.symm same]
  | free target =>
      by_cases same : target = slot
      · subst same
        simp [apply, slot?, onTask, taskFree]
      · simp [apply, slot?, same, taskFree, Dev.modifyTask, Ne.symm same]
  | store target write =>
      by_cases same : target = slot
      · subst same
        simp [apply, slot?, onTask]
      · simp [apply, slot?, same, Dev.modifyTask, Ne.symm same]

/-! ### Effects on the lists -/

theorem apply_freeTasks (action : Action) (dev : Dev) :
    (action.apply dev).freeTasks =
      match action with
      | .alloc slot _ _ => dev.freeTasks.erase slot
      | .free slot => dev.freeTasks ++ [slot]
      | _ => dev.freeTasks := by
  cases action <;> rfl

/-- The effect of an action on an accelerator. -/
def onAccel (index : AccelIndex) : Action → Accel → Accel
  | .enqueue target slot, accel =>
      if target = index then { accel with taskQueue := accel.taskQueue ++ [slot] } else accel
  | .dequeue target slot, accel =>
      if target = index then
        { accel with
          taskQueue := accel.taskQueue.erase slot
          activeTasks := accel.activeTasks ++ [slot] }
      else accel
  | .unlink target slot, accel =>
      if target = index then { accel with activeTasks := accel.activeTasks.erase slot }
      else accel
  | .touch target update, accel => if target = index then update.apply accel else accel
  | .tau, accel | .alloc _ _ _, accel | .free _, accel | .store _ _, accel => accel

theorem apply_accelerators (action : Action) (dev : Dev) (index : AccelIndex) :
    (action.apply dev).accelerators index = action.onAccel index (dev.accelerators index) := by
  have modified (target : AccelIndex) (change : Accel → Accel) :
      (dev.modifyAccel target change).accelerators index =
        if target = index then change (dev.accelerators index)
        else dev.accelerators index := by
    by_cases same : target = index
    · subst same
      simp
    · simp [dev.modifyAccel_other change (Ne.symm same), same]
  cases action with
  | enqueue target slot => simp only [apply, onAccel, modified]
  | dequeue target slot => simp only [apply, onAccel, modified]
  | unlink target slot => simp only [apply, onAccel, modified]
  | touch target update => exact modified target _
  | _ => rfl

theorem apply_taskQueue (action : Action) (dev : Dev) (index : AccelIndex) :
    ((action.apply dev).accelerators index).taskQueue =
      match action with
      | .enqueue accel slot =>
          if accel = index then (dev.accelerators index).taskQueue ++ [slot]
          else (dev.accelerators index).taskQueue
      | .dequeue accel slot =>
          if accel = index then (dev.accelerators index).taskQueue.erase slot
          else (dev.accelerators index).taskQueue
      | _ => (dev.accelerators index).taskQueue := by
  rw [apply_accelerators]
  cases action with
  | touch target update =>
      simp only [onAccel]
      split
      · cases update <;> rfl
      · rfl
  | _ => simp only [onAccel] <;> split <;> rfl

theorem apply_activeTasks (action : Action) (dev : Dev) (index : AccelIndex) :
    ((action.apply dev).accelerators index).activeTasks =
      match action with
      | .dequeue accel slot =>
          if accel = index then (dev.accelerators index).activeTasks ++ [slot]
          else (dev.accelerators index).activeTasks
      | .unlink accel slot =>
          if accel = index then (dev.accelerators index).activeTasks.erase slot
          else (dev.accelerators index).activeTasks
      | _ => (dev.accelerators index).activeTasks := by
  rw [apply_accelerators]
  cases action with
  | touch target update =>
      simp only [onAccel]
      split
      · cases update <;> rfl
      · rfl
  | _ => simp only [onAccel] <;> split <;> rfl

/-- The id counter moves with every allocation. -/
theorem apply_nextTaskId (action : Action) (dev : Dev) :
    (action.apply dev).nextTaskId =
      match action with
      | .alloc _ taskId _ => taskId
      | _ => dev.nextTaskId := by
  cases action <;> rfl

/-- Nothing but allocation and release changes the pool. -/
theorem keeps_pool {action : Action}
    (notAlloc : ∀ slot taskId desc, action ≠ .alloc slot taskId desc)
    (notFree : ∀ slot, action ≠ .free slot) (dev : Dev) :
    (action.apply dev).nextTaskId = dev.nextTaskId ∧
      (action.apply dev).freeTasks = dev.freeTasks := by
  rw [apply_nextTaskId, apply_freeTasks]
  cases action with
  | alloc slot taskId desc => exact absurd rfl (notAlloc slot taskId desc)
  | free slot => exact absurd rfl (notFree slot)
  | _ => exact ⟨rfl, rfl⟩

/-- The actions that move no slot from one list to another. -/
def IsListMove : Action → Prop
  | .alloc _ _ _ | .free _ | .enqueue _ _ | .dequeue _ _ | .unlink _ _ => True
  | .tau | .store _ _ | .touch _ _ => False

theorem not_isListMove_of_slot {action : Action} (noSlot : action.slot? = none) :
    ¬ action.IsListMove := by
  cases action with
  | tau => exact id
  | touch accel update => exact id
  | _ => cases noSlot

theorem keeps_lists {action : Action} (still : ¬ action.IsListMove) (dev : Dev) :
    (action.apply dev).freeTasks = dev.freeTasks ∧
      (action.apply dev).nextTaskId = dev.nextTaskId ∧
      ∀ index, ((action.apply dev).accelerators index).taskQueue =
          (dev.accelerators index).taskQueue ∧
        ((action.apply dev).accelerators index).activeTasks =
          (dev.accelerators index).activeTasks := by
  rw [apply_freeTasks, apply_nextTaskId]
  simp only [apply_taskQueue, apply_activeTasks]
  cases action with
  | tau => exact ⟨rfl, rfl, fun _ => ⟨rfl, rfl⟩⟩
  | store slot write => exact ⟨rfl, rfl, fun _ => ⟨rfl, rfl⟩⟩
  | touch accel update => exact ⟨rfl, rfl, fun _ => ⟨rfl, rfl⟩⟩
  | _ => exact absurd trivial still

/-! ### Effects on the flags -/

/-- A field of an accelerator that only one kind of update sets. -/
private theorem apply_flag {Flag : Type} (flag : Accel → Flag) (setter : Touch) (value : Flag)
    (sets : ∀ update accel,
      flag (Touch.apply update accel) = if update = setter then value else flag accel)
    (notList : ∀ accel queue active,
      flag { accel with taskQueue := queue, activeTasks := active } = flag accel)
    (action : Action) (dev : Dev) (index : AccelIndex) :
    flag ((action.apply dev).accelerators index) =
      if action = .touch index setter then value else flag (dev.accelerators index) := by
  rw [apply_accelerators]
  cases action with
  | touch target update =>
      by_cases same : target = index
      · simp [onAccel, same, sets]
      · simp [onAccel, same]
  | enqueue target slot =>
      simp only [onAccel, reduceCtorEq, ↓reduceIte]
      split
      · exact notList _ _ _
      · rfl
  | dequeue target slot =>
      simp only [onAccel, reduceCtorEq, ↓reduceIte]
      split
      · exact notList _ _ _
      · rfl
  | unlink target slot =>
      simp only [onAccel, reduceCtorEq, ↓reduceIte]
      split
      · exact notList _ _ _
      · rfl
  | _ => simp [onAccel]

theorem apply_running (action : Action) (dev : Dev) (index : AccelIndex) :
    ((action.apply dev).accelerators index).running =
      if action = .touch index .clearRunning then false else (dev.accelerators index).running :=
  apply_flag Accel.running .clearRunning false (fun update _ => by cases update <;> rfl)
    (fun _ _ _ => rfl) action dev index

theorem apply_shouldStop (action : Action) (dev : Dev) (index : AccelIndex) :
    ((action.apply dev).accelerators index).shouldStop =
      if action = .touch index .requestStop then true else (dev.accelerators index).shouldStop :=
  apply_flag Accel.shouldStop .requestStop true (fun update _ => by cases update <;> rfl)
    (fun _ _ _ => rfl) action dev index

theorem apply_workerThread (action : Action) (dev : Dev) (index : AccelIndex) :
    ((action.apply dev).accelerators index).workerThread =
      if action = .touch index .clearThread then .null
      else (dev.accelerators index).workerThread :=
  apply_flag Accel.workerThread .clearThread .null (fun update _ => by cases update <;> rfl)
    (fun _ _ _ => rfl) action dev index

theorem apply_workWait (action : Action) (dev : Dev) (index : AccelIndex) :
    ((action.apply dev).accelerators index).workWait =
      if action = .touch index .prepareToWait then ⟨true, false⟩
      else if action = .touch index .finishWait then ⟨false, false⟩
      else if action = .touch index .wakeUp ∨ action = .touch index .requestStop then
        (dev.accelerators index).workWait.wakeUp
      else (dev.accelerators index).workWait := by
  rw [apply_accelerators]
  cases action with
  | touch target update =>
      by_cases same : target = index
      · subst same
        cases update <;> simp [onAccel, Touch.apply]
      · simp [onAccel, same]
  | _ => simp only [onAccel, reduceCtorEq, ↓reduceIte, or_self] <;> split <;> rfl

theorem apply_loadPercent (action : Action) (dev : Dev) (index : AccelIndex) :
    ((action.apply dev).accelerators index).loadPercent =
      if action = .touch index .raiseLoad then
        CortexForge.raiseLoad (dev.accelerators index).loadPercent
      else if action = .touch index .lowerLoad then
        CortexForge.lowerLoad (dev.accelerators index).loadPercent
      else (dev.accelerators index).loadPercent := by
  rw [apply_accelerators]
  cases action with
  | touch target update =>
      by_cases same : target = index
      · subst same
        cases update <;> simp [onAccel, Touch.apply]
      · simp [onAccel, same]
  | _ => simp only [onAccel, reduceCtorEq, ↓reduceIte] <;> split <;> rfl

end Action

/-! ## Events -/

/-- The threads of the system: any number of client threads, the worker of each
accelerator, the thread that stops the workers, and the clock. -/
inductive Actor where
  | client (thread : Nat)
  | worker (accel : AccelIndex)
  | stopper
  | clock
deriving DecidableEq

/-- What a run records of one step. -/
structure Event where
  actor : Actor
  action : Action
deriving DecidableEq

end CortexForge.Concurrent
