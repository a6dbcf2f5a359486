import CortexForge.Driver.TaskManager

/-!
Contract: accelerator initialisation, the information snapshot, the load
arithmetic of the worker, and the device that a successful probe leaves.

Sources: `src/accel_manager.c` and `cortex_forge_probe` of `src/main.c`.

Does not own: the worker's loop, which is the machine under `Concurrent`, and
the hardware resources that probe acquires.
-/

namespace CortexForge

/-- The zeroed accelerator of `devm_kzalloc`. -/
def Accel.zero : Accel where
  type := 0
  name := ""
  freqHz := 0
  tempCelsius := 0
  loadPercent := 0
  fwVersion := 0
  hwVersion := 0
  memTotal := 0
  memFree := 0
  state := 0
  taskQueue := []
  activeTasks := []
  workerThread := .null
  workWait := .init
  running := false
  shouldStop := false

/-- `accel_init`. The copy of the name is cut at `sizeof(accel->name) - 1`. -/
def accelInit (type : UInt32) (name : String) (accel : Accel) : Accel :=
  { accel with
    type := type
    name := (name.take 15).toString
    freqHz := 1000000000
    tempCelsius := 40
    loadPercent := 0
    fwVersion := 0x00010000
    hwVersion := 0x02000000
    memTotal := 1024 * 1024 * 1024
    memFree := 1024 * 1024 * 1024
    state := 2
    taskQueue := []
    activeTasks := []
    workWait := .init
    running := true }

/-- `min(100U, accel->load_percent + 10)`. -/
def raiseLoad (load : UInt32) : UInt32 := min 100 (load + 10)

/-- `max(0, (int) accel->load_percent - 10)`, stored back into a `u32`. -/
def lowerLoad (load : UInt32) : UInt32 := (max 0 (load.toInt32 - 10)).toUInt32

/-- `accel_get_info`: every field but `accel_type` and `reserved` is written. -/
def accelGetInfo (accel : Accel) (info : AccelInfo) : AccelInfo :=
  { info with
    freqHz := accel.freqHz
    tempCelsius := accel.tempCelsius
    loadPercent := accel.loadPercent
    fwVersion := accel.fwVersion
    hwVersion := accel.hwVersion
    memTotal := accel.memTotal
    memFree := accel.memFree
    state := accel.state }

/-! ## Probe -/

/-- `devm_kzalloc` of the device. -/
def Dev.zero : Dev where
  tasks := fun _ => Task.zero
  freeTasks := []
  nextTaskId := 0
  accelerators := fun _ => Accel.zero

/-- The type and name probe gives each accelerator. -/
def accelIdentity : AccelIndex → UInt32 × String
  | ⟨0, _⟩ => (0, "nvdla0")
  | ⟨1, _⟩ => (1, "nvdla1")
  | ⟨2, _⟩ => (2, "pva0")

/-- The device after `cortex_forge_probe` has initialised the pool and the
accelerators and `accel_start_workers` has started every worker. -/
def probe : Dev :=
  let dev := taskPoolInit { Dev.zero with freeTasks := [], nextTaskId := 0 }
  { dev with
    accelerators := fun index =>
      { accelInit (accelIdentity index).1 (accelIdentity index).2 (dev.accelerators index) with
        workerThread := .thread } }

@[simp] theorem probe_tasks (slot : Slot) : probe.tasks slot = Task.zero := by
  simp only [probe, taskPoolInit_eq]
  rfl

@[simp] theorem probe_freeTasks : probe.freeTasks = List.finRange maxTasks := by
  simp only [probe, taskPoolInit_eq, List.nil_append]

/-- The first slot of a freshly probed device. -/
theorem probe_freeTasks_cons : ∃ rest, probe.freeTasks = 0 :: rest := by
  rw [probe_freeTasks]
  exact ⟨_, List.finRange_succ (n := 255)⟩

@[simp] theorem probe_nextTaskId : probe.nextTaskId = 0 := by
  simp only [probe, taskPoolInit_eq]

end CortexForge
