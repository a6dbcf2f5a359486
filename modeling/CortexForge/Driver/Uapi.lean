import Mathlib.Data.Fin.VecNotation
import CortexForge.Driver.Types
import CortexForge.Foundation.Layout

/-!
Contract: the driver's side of the user-space interface.

Source: `include/cortex_forge_uapi.h`.

Owns: the structures exchanged with user space, their scalars in declaration
order, the status codes, the `_IOC` encoding and the eight command numbers.

Does not own: the library's own copy of these declarations, which is a separate
text (`lib/include/libcortex-forge.h`) and has its own module.
-/

namespace CortexForge

open CortexForge.Foundation

/-! ## Structures -/

/-- `struct cortex_forge_task_desc`. -/
structure TaskDesc where
  taskId : UInt32
  accelType : UInt32
  priority : UInt32
  inputSize : UInt32
  outputSize : UInt32
  inputAddr : UInt64
  outputAddr : UInt64
  timeoutMs : UInt32
  flags : UInt32
  reserved : Fin 4 → UInt64
deriving DecidableEq

/-- A request without buffers or deadline for accelerator 0. -/
def TaskDesc.zero : TaskDesc := ⟨0, 0, 0, 0, 0, 0, 0, 0, 0, fun _ => 0⟩

/-- `struct cortex_forge_task_status`. -/
structure TaskStatus where
  taskId : UInt32
  status : UInt32
  execUsec : UInt64
  errorCode : Int32
  reserved : Fin 3 → UInt32
deriving DecidableEq

/-- `struct cortex_forge_accel_info`. -/
structure AccelInfo where
  accelType : UInt32
  freqHz : UInt32
  tempCelsius : Int32
  loadPercent : UInt32
  fwVersion : UInt32
  hwVersion : UInt32
  memTotal : UInt64
  memFree : UInt64
  state : UInt32
  reserved : Fin 3 → UInt32
deriving DecidableEq

/-- `struct cortex_forge_profile_metrics`. -/
structure ProfileMetrics where
  computeUs : UInt64
  memoryUs : UInt64
  storageUs : UInt64
  networkUs : UInt64
  thermalCelsius : UInt32
  powerMw : UInt32
  reserved : Fin 4 → UInt64
deriving DecidableEq

/-! ## Status codes -/

/-- The `CORTEX_FORGE_TASK_*` codes a client reads in a status word. -/
inductive StatusCode where
  | pending
  | running
  | complete
  | failed
  | cancelled
deriving DecidableEq, Repr

/-- The value of a `CORTEX_FORGE_TASK_*` macro. -/
def StatusCode.value : StatusCode → UInt32
  | .pending => 0
  | .running => 1
  | .complete => 2
  | .failed => 3
  | .cancelled => 4

/-! ## Scalars of the structures -/

namespace TaskDesc

def fields : List Scalar :=
  [.word32, .word32, .word32, .word32, .word32, .word64, .word64, .word32, .word32,
    .word64, .word64, .word64, .word64]

def toWords (desc : TaskDesc) : List Nat :=
  [desc.taskId.toNat, desc.accelType.toNat, desc.priority.toNat, desc.inputSize.toNat,
    desc.outputSize.toNat, desc.inputAddr.toNat, desc.outputAddr.toNat,
    desc.timeoutMs.toNat, desc.flags.toNat] ++
    List.ofFn fun index => (desc.reserved index).toNat

def ofWords (words : List Nat) : TaskDesc where
  taskId := UInt32.ofNat (words.getD 0 0)
  accelType := UInt32.ofNat (words.getD 1 0)
  priority := UInt32.ofNat (words.getD 2 0)
  inputSize := UInt32.ofNat (words.getD 3 0)
  outputSize := UInt32.ofNat (words.getD 4 0)
  inputAddr := UInt64.ofNat (words.getD 5 0)
  outputAddr := UInt64.ofNat (words.getD 6 0)
  timeoutMs := UInt32.ofNat (words.getD 7 0)
  flags := UInt32.ofNat (words.getD 8 0)
  reserved := fun index => UInt64.ofNat (words.getD (9 + index) 0)

end TaskDesc

namespace TaskStatus

def fields : List Scalar :=
  [.word32, .word32, .word64, .word32, .word32, .word32, .word32]

def toWords (status : TaskStatus) : List Nat :=
  [status.taskId.toNat, status.status.toNat, status.execUsec.toNat,
    status.errorCode.toUInt32.toNat] ++
    List.ofFn fun index => (status.reserved index).toNat

def ofWords (words : List Nat) : TaskStatus where
  taskId := UInt32.ofNat (words.getD 0 0)
  status := UInt32.ofNat (words.getD 1 0)
  execUsec := UInt64.ofNat (words.getD 2 0)
  errorCode := (UInt32.ofNat (words.getD 3 0)).toInt32
  reserved := fun index => UInt32.ofNat (words.getD (4 + index) 0)

end TaskStatus

namespace AccelInfo

def fields : List Scalar :=
  [.word32, .word32, .word32, .word32, .word32, .word32, .word64, .word64, .word32,
    .word32, .word32, .word32]

def toWords (info : AccelInfo) : List Nat :=
  [info.accelType.toNat, info.freqHz.toNat, info.tempCelsius.toUInt32.toNat,
    info.loadPercent.toNat, info.fwVersion.toNat, info.hwVersion.toNat,
    info.memTotal.toNat, info.memFree.toNat, info.state.toNat] ++
    List.ofFn fun index => (info.reserved index).toNat

def ofWords (words : List Nat) : AccelInfo where
  accelType := UInt32.ofNat (words.getD 0 0)
  freqHz := UInt32.ofNat (words.getD 1 0)
  tempCelsius := (UInt32.ofNat (words.getD 2 0)).toInt32
  loadPercent := UInt32.ofNat (words.getD 3 0)
  fwVersion := UInt32.ofNat (words.getD 4 0)
  hwVersion := UInt32.ofNat (words.getD 5 0)
  memTotal := UInt64.ofNat (words.getD 6 0)
  memFree := UInt64.ofNat (words.getD 7 0)
  state := UInt32.ofNat (words.getD 8 0)
  reserved := fun index => UInt32.ofNat (words.getD (9 + index) 0)

end AccelInfo

namespace ProfileMetrics

def fields : List Scalar :=
  [.word64, .word64, .word64, .word64, .word32, .word32, .word64, .word64, .word64,
    .word64]

def toWords (metrics : ProfileMetrics) : List Nat :=
  [metrics.computeUs.toNat, metrics.memoryUs.toNat, metrics.storageUs.toNat,
    metrics.networkUs.toNat, metrics.thermalCelsius.toNat, metrics.powerMw.toNat] ++
    List.ofFn fun index => (metrics.reserved index).toNat

def ofWords (words : List Nat) : ProfileMetrics where
  computeUs := UInt64.ofNat (words.getD 0 0)
  memoryUs := UInt64.ofNat (words.getD 1 0)
  storageUs := UInt64.ofNat (words.getD 2 0)
  networkUs := UInt64.ofNat (words.getD 3 0)
  thermalCelsius := UInt32.ofNat (words.getD 4 0)
  powerMw := UInt32.ofNat (words.getD 5 0)
  reserved := fun index => UInt64.ofNat (words.getD (6 + index) 0)

end ProfileMetrics

/-! ## Command numbers -/

/-- The direction bits of `_IOC`. -/
inductive IocDir where
  | write
  | read
  | readWrite
deriving DecidableEq, Repr

def IocDir.bits : IocDir → Nat
  | .write => 1
  | .read => 2
  | .readWrite => 3

/-- `_IOC(dir, type, nr, size)`: eight bits of number, eight of magic, fourteen
of size and two of direction. -/
def ioc (dir : IocDir) (magic number size : Nat) : UInt32 :=
  UInt32.ofNat (dir.bits * 2 ^ 30 + size * 2 ^ 16 + magic * 2 ^ 8 + number)

/-- `CORTEX_FORGE_MAGIC`. -/
def magic : Nat := 0xCF

/-- The LP64 kernel ABI: every scalar is aligned to its own size. -/
def lp64 : Abi := ⟨8, id⟩

theorem lp64_aligns : lp64.Aligns where
  positive := fun scalar => by cases scalar <;> decide

/-- The operations behind the eight `CORTEX_FORGE_IOCTL_*` commands. -/
inductive Command where
  | submitTask
  | queryTask
  | cancelTask
  | getAccelInfo
  | setPower
  | getVersion
  | getProfile
  | setAccel
deriving DecidableEq, Repr

/-- The driver's command numbers, `CORTEX_FORGE_IOCTL_*` of the UAPI header. -/
def Command.number : Command → UInt32
  | .submitTask => ioc .readWrite magic 1 (lp64.sizeof TaskDesc.fields)
  | .queryTask => ioc .readWrite magic 2 (lp64.sizeof TaskStatus.fields)
  | .cancelTask => ioc .write magic 3 (lp64.sizeof [.word32])
  | .getAccelInfo => ioc .read magic 4 (lp64.sizeof AccelInfo.fields)
  | .setPower => ioc .write magic 5 (lp64.sizeof [.word32])
  | .getVersion => ioc .read magic 6 (lp64.sizeof [.word32])
  | .getProfile => ioc .read magic 7 (lp64.sizeof ProfileMetrics.fields)
  | .setAccel => ioc .write magic 8 (lp64.sizeof [.word32])

def Command.all : List Command :=
  [.submitTask, .queryTask, .cancelTask, .getAccelInfo, .setPower, .getVersion,
    .getProfile, .setAccel]

/-- The `switch (cmd)` of `cortex_forge_ioctl`: the case a command number
selects, `none` being `default`. -/
def Command.ofNumber (number : UInt32) : Option Command :=
  Command.all.find? fun command => command.number = number

/-- The eight case labels are distinct, so each command selects its own case. -/
theorem Command.ofNumber_number (command : Command) :
    Command.ofNumber command.number = some command := by
  cases command <;> decide

end CortexForge
