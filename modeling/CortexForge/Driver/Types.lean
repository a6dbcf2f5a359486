import Mathlib.Algebra.GroupWithZero.Nat
import Mathlib.Data.Fintype.Basic
import Mathlib.Logic.Function.Basic

/-!
Contract: the driver's data model.

Sources: `include/cortex_forge_task.h`, `include/cortex_forge_accel.h`,
`include/cortex_forge_dev.h`, and the data the kernel keeps for the driver.

Owns: task slots, accelerators, the device structure, errno values, and the
two things the driver takes from the kernel's clock (`HZ` and
`msecs_to_jiffies`).

The list node `entry` of a task is not a field here. Every list the driver
threads through it (`free_tasks`, `task_queue`, `active_tasks`) is a list of
slot indices, and `list_add_tail`, `list_del`, `list_first_entry` and
`list_empty` are append, erase, head and emptiness on these lists.

Does not own: the platform, clock, reset and character-device handles of
`struct cortex_forge_dev`, which no modelled function reads.
-/

namespace CortexForge

/-! ## Constants -/

/-- `MAX_TASKS`. -/
def maxTasks : Nat := 256

/-- `NUM_ACCELERATORS`. -/
def numAccelerators : Nat := 3

/-- An index into `dev->tasks`. A pointer to a task is its slot. -/
abbrev Slot := Fin maxTasks

/-- An index into `dev->accelerators`. -/
abbrev AccelIndex := Fin numAccelerators

instance : NeZero maxTasks := ⟨Nat.succ_ne_zero 255⟩

instance : NeZero numAccelerators := ⟨Nat.succ_ne_zero 2⟩

/-- The errno values the driver returns or stores. -/
inductive Errno where
  | enoent
  | e2big
  | enomem
  | efault
  | einval
  | enotty
  | ecanceled
deriving DecidableEq, Repr

/-- The Linux number of an errno value. -/
def Errno.number : Errno → Nat
  | .enoent => 2
  | .e2big => 7
  | .enomem => 12
  | .efault => 14
  | .einval => 22
  | .enotty => 25
  | .ecanceled => 125

/-- The negative value by which the driver reports an errno. -/
def Errno.ret (errno : Errno) : Int := -(errno.number : Int)

theorem Errno.ret_neg (errno : Errno) : errno.ret < 0 := by
  cases errno <;> decide

/-- What the driver takes from the kernel's clock: `HZ` and
`msecs_to_jiffies`. -/
structure Kernel where
  hz : UInt64
  hzPos : 0 < hz
  msecsToJiffies : UInt32 → UInt64

/-- A kernel with `HZ = 1000`. An argument whose sign bit is set means an
infinite timeout, `MAX_JIFFY_OFFSET`. -/
def Kernel.hz1000 : Kernel where
  hz := 1000
  hzPos := by decide
  msecsToJiffies := fun msecs =>
    if msecs < 0x80000000 then msecs.toUInt64 else 0x3ffffffffffffffe

/-! ## Tasks -/

/-- `enum task_state`. -/
inductive TaskState where
  | free
  | pending
  | running
  | complete
  | failed
  | cancelled
deriving DecidableEq, Repr

/-- The value of a `TASK_STATE_*` enumerator. -/
def TaskState.code : TaskState → UInt32
  | .free => 0
  | .pending => 1
  | .running => 2
  | .complete => 3
  | .failed => 4
  | .cancelled => 5

/-- `struct cortex_forge_task`. `done` records whether the completion has been
signalled since `init_completion`. -/
structure Task where
  id : UInt32
  state : TaskState
  accelType : UInt32
  priority : UInt32
  inputAddr : UInt64
  inputSize : UInt32
  outputAddr : UInt64
  outputSize : UInt32
  timeoutMs : UInt32
  submitJiffies : UInt64
  completeJiffies : UInt64
  errorCode : Int32
  done : Bool
deriving DecidableEq, Repr

/-- The image `memset(task, 0, sizeof(*task))` leaves, with a fresh completion. -/
def Task.zero : Task where
  id := 0
  state := .free
  accelType := 0
  priority := 0
  inputAddr := 0
  inputSize := 0
  outputAddr := 0
  outputSize := 0
  timeoutMs := 0
  submitJiffies := 0
  completeJiffies := 0
  errorCode := 0
  done := false

/-- `-ECANCELED` as stored in the `int error_code` of a task. -/
def ecanceledCode : Int32 := -125

/-! ## Accelerators -/

/-- `wait_queue_head_t work_wait`, which only the accelerator's own worker
waits on: whether the worker is registered, and whether a `wake_up` has reached
it since it registered. -/
structure WaitQueue where
  registered : Bool
  woken : Bool
deriving DecidableEq, Repr

/-- `init_waitqueue_head`. -/
def WaitQueue.init : WaitQueue := ⟨false, false⟩

/-- `wake_up`: reaches the worker only while it is registered. -/
def WaitQueue.wakeUp (queue : WaitQueue) : WaitQueue :=
  if queue.registered then { queue with woken := true } else queue

/-- The value of a `struct task_struct *`. -/
inductive ThreadPtr where
  | null
  | thread
  | err (errno : Int32)
deriving DecidableEq, Repr

/-- `struct cortex_forge_accel`. `shouldStop` is the flag `kthread_stop` sets
in the kernel's record of `worker_thread`. -/
structure Accel where
  type : UInt32
  name : String
  freqHz : UInt32
  tempCelsius : Int32
  loadPercent : UInt32
  fwVersion : UInt32
  hwVersion : UInt32
  memTotal : UInt64
  memFree : UInt64
  state : UInt32
  taskQueue : List Slot
  activeTasks : List Slot
  workerThread : ThreadPtr
  workWait : WaitQueue
  running : Bool
  shouldStop : Bool
deriving DecidableEq, Repr

/-! ## The device -/

/-- `struct cortex_forge_dev`: the task pool, the id counter and the
accelerators. -/
@[ext] structure Dev where
  tasks : Slot → Task
  freeTasks : List Slot
  nextTaskId : UInt32
  accelerators : AccelIndex → Accel

namespace Dev

/-- Update one task slot in place. -/
def modifyTask (dev : Dev) (slot : Slot) (change : Task → Task) : Dev :=
  { dev with tasks := Function.update dev.tasks slot (change (dev.tasks slot)) }

/-- Update one accelerator in place. -/
def modifyAccel (dev : Dev) (index : AccelIndex) (change : Accel → Accel) : Dev :=
  { dev with
    accelerators :=
      Function.update dev.accelerators index (change (dev.accelerators index)) }

section Projections

variable (dev : Dev) (slot : Slot) (index : AccelIndex)
  (taskChange : Task → Task) (accelChange : Accel → Accel)

@[simp] theorem modifyTask_freeTasks :
    (dev.modifyTask slot taskChange).freeTasks = dev.freeTasks := rfl

@[simp] theorem modifyTask_accelerators :
    (dev.modifyTask slot taskChange).accelerators = dev.accelerators := rfl

@[simp] theorem modifyAccel_tasks :
    (dev.modifyAccel index accelChange).tasks = dev.tasks := rfl

@[simp] theorem modifyAccel_freeTasks :
    (dev.modifyAccel index accelChange).freeTasks = dev.freeTasks := rfl

@[simp] theorem modifyTask_same :
    (dev.modifyTask slot taskChange).tasks slot = taskChange (dev.tasks slot) := by
  simp [modifyTask]

@[simp] theorem modifyAccel_same :
    (dev.modifyAccel index accelChange).accelerators index =
      accelChange (dev.accelerators index) := by
  simp [modifyAccel]

variable {slot index}

theorem modifyTask_other {other : Slot} (different : other ≠ slot) :
    (dev.modifyTask slot taskChange).tasks other = dev.tasks other := by
  simp [modifyTask, different]

theorem modifyAccel_other {other : AccelIndex} (different : other ≠ index) :
    (dev.modifyAccel index accelChange).accelerators other =
      dev.accelerators other := by
  simp [modifyAccel, different]

end Projections

end Dev

end CortexForge
