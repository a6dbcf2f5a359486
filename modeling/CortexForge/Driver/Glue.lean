import CortexForge.Foundation.Machine
import CortexForge.Foundation.Resource
import CortexForge.Driver.Probe

/-!
Contract: what the driver holds from the loading of the module to its unloading.

Source: `src/main.c`, with the workers of `src/accel_manager.c` as `Driver.Probe` has them and
`cortex_forge_open` of `src/chardev.c`. Devices come and go, probes fail at any of their calls,
files are opened and closed, and the module is loaded again after it was unloaded.

The kernel's part is what its interfaces promise: managed resources are released, last first,
after a failed probe and after a remove; unregistering the driver waits for probes under way and
removes the devices bound to it, last first; a second device node of the same name is refused
with `-EEXIST`; every open file holds a reference on the module, which keeps it from being
unloaded. From `cdev_add` on the character device can be opened, also while its probe is still
under way, so that a probe is two steps of a run: up to `cdev_add`, and the rest. A file that is
opened before `cdev_del` in a remove counts as opened before the remove.

Owns: the whole of probe and remove, init and exit, and their runs.

Does not own: the pool of tasks, and the stores of probe into its structure.
-/

namespace CortexForge.Glue

open CortexForge.Foundation

/-! ## Resources -/

/-- What the driver can hold, by platform device. -/
inductive Resource where
  | deviceClass
  | platformDriver
  | memory (device : Nat)
  | mmio (device : Nat)
  | clocks (device : Nat)
  | reset (device : Nat)
  | worker (device index : Nat)
  | region (device : Nat)
  | cdev (device : Nat)
  | node (device : Nat)
deriving DecidableEq

namespace Resource

/-- What must be there while a resource is held. The handles of a device lie in the
structure that `devm_kzalloc` returned, and so does the `cdev` itself. An open file is no resource
of the driver, and its pointer to the structure is no need here. -/
def needs : Resource → List Resource
  | .deviceClass => []
  | .platformDriver => [.deviceClass]
  | .memory _ => [.platformDriver]
  | .mmio device | .clocks device | .reset device => [.memory device]
  | .worker device _ | .region device => [.memory device]
  | .cdev device => [.memory device, .region device]
  | .node device => [.deviceClass, .cdev device]

def Needs (resource need : Resource) : Prop := need ∈ resource.needs

/-- The device a resource belongs to. -/
def device? : Resource → Option Nat
  | .deviceClass | .platformDriver => none
  | .memory device | .mmio device | .clocks device | .reset device => some device
  | .worker device _ | .region device | .cdev device | .node device => some device

end Resource

/-- The managed resources of a device, in the order in which probe acquires them. -/
def managed (device : Nat) : List Resource :=
  [.memory device, .mmio device, .clocks device, .reset device]

def workerThreads (device count : Nat) : List Resource :=
  (List.range count).map (.worker device)

/-- The steps of the registration of the character device, in order. -/
def chardev (device : Nat) : List Resource := [.region device, .cdev device, .node device]

/-! ## Probe -/

/-- The answers of the kernel to the calls of one probe. -/
structure Answers where
  kzalloc : Bool
  ioremapResource : Option ErrPtr
  clkBulkGetAll : Int32
  resetControlGet : Option ErrPtr
  platformGetIrq : Int32
  kthreadRun : Nat → KthreadRun
  allocChrdevRegion : Int32
  cdevAdd : Int32
  deviceCreate : Option ErrPtr

/-- A probe under way: the array of accelerators, the managed resources in the order of
their acquisition, and the log of all of them. -/
structure Probing where
  workers : Workers
  devres : List Resource
  log : List (Use Resource)

/-- A call for a worker as a use of the thread. -/
def workerUse (device : Nat) : WorkerCall → Option (Use Resource)
  | .kthreadRun index .thread => some (.acquire (.worker device index))
  | .kthreadRun _ _ => none
  | .kthreadStop index _ => some (.release (.worker device index))

namespace Probing

def start (identity : Nat → UInt32 × String) : Probing := ⟨Workers.init identity, [], []⟩

def acquire (resource : Resource) (probing : Probing) : Probing :=
  { probing with log := probing.log ++ [.acquire resource] }

def release (resource : Resource) (probing : Probing) : Probing :=
  { probing with log := probing.log ++ [.release resource] }

/-- A managed resource is put on the device's list as well. -/
def manage (resource : Resource) (probing : Probing) : Probing :=
  { probing with
    devres := probing.devres ++ [resource]
    log := probing.log ++ [.acquire resource] }

/-- The array after one of the two loops over the workers, and the calls it has made. -/
def follow (device : Nat) (after : Workers) (probing : Probing) : Probing :=
  { probing with
    workers := after
    log := probing.log ++
      (after.calls.drop probing.workers.calls.length).filterMap (workerUse device) }

/-- `accel_stop_workers` on the device's array. -/
def stopWorkers (num device : Nat) (probing : Probing) : Probing :=
  probing.follow device (accelStopWorkers num probing.workers)

end Probing

/-- `-ENOMEM` as an `int`. -/
def enomemCode : Int32 := -12

/-- `-EEXIST` as an error pointer. -/
def eexist : ErrPtr := ⟨-17, by decide, by decide⟩

/-- The name of the device node, `DRV_NAME "%u"` with the argument 0. -/
def nodeName : String := "cortex-forge0"

/-- `device_create`: a name that is taken is refused. -/
def deviceCreate (taken : List String) (name : String) (answer : Option ErrPtr) :
    Option ErrPtr :=
  if taken.any (· == name) then some eexist else answer

/-- The workers and the character device up to `cdev_add`: the error that is returned, or the
probe under way. -/
def startAndAddCdev (num device : Nat) (answers : Answers) (probing : Probing) :
    Except (Int32 × Probing) Probing :=
  let started := accelStartWorkers answers.kthreadRun num probing.workers
  let probing := probing.follow device started.2
  if started.1 ≠ 0 then .error (started.1, probing)
  else if answers.allocChrdevRegion ≠ 0 then
    .error (answers.allocChrdevRegion, probing.stopWorkers num device)
  else
    let probing := probing.acquire (.region device)
    if answers.cdevAdd ≠ 0 then
      .error (answers.cdevAdd, (probing.release (.region device)).stopWorkers num device)
    else .ok (probing.acquire (.cdev device))

/-- `cortex_forge_probe` up to `cdev_add`. -/
def probeToCdev (num : Nat) (identity : Nat → UInt32 × String) (device : Nat)
    (answers : Answers) : Except (Int32 × Probing) Probing :=
  let probing := Probing.start identity
  if answers.kzalloc = false then .error (enomemCode, probing)
  else
    let probing := probing.manage (.memory device)
    match answers.ioremapResource with
    | some error => .error (error.code, probing)
    | none =>
        let probing := probing.manage (.mmio device)
        if answers.clkBulkGetAll < 0 then .error (answers.clkBulkGetAll, probing)
        else
          let probing := probing.manage (.clocks device)
          match answers.resetControlGet with
          | some error => .error (error.code, probing)
          | none =>
              let probing := probing.manage (.reset device)
              if answers.platformGetIrq < 0 then .error (answers.platformGetIrq, probing)
              else startAndAddCdev num device answers probing

/-- The rest of it, from `device_create` on. -/
def createNode (num device : Nat) (taken : List String) (answer : Option ErrPtr)
    (probing : Probing) : Int32 × Probing :=
  match deviceCreate taken nodeName answer with
  | some error =>
      (error.code,
        ((probing.release (.cdev device)).release (.region device)).stopWorkers num device)
  | none => (0, probing.acquire (.node device))

/-- `cortex_forge_probe`. -/
def cortexForgeProbe (num : Nat) (identity : Nat → UInt32 × String) (device : Nat)
    (taken : List String) (answers : Answers) : Int32 × Probing :=
  match probeToCdev num identity device answers with
  | .error result => result
  | .ok probing => createNode num device taken answers.deviceCreate probing

/-- The answers as the probe of `Driver.Probe` takes them, with the first error among the
managed resources and the interrupt. -/
def Answers.summary (taken : List String) (answers : Answers) : ProbeEnv where
  acquire :=
    if answers.kzalloc = false then enomemCode
    else
      match answers.ioremapResource with
      | some error => error.code
      | none =>
          if answers.clkBulkGetAll < 0 then answers.clkBulkGetAll
          else
            match answers.resetControlGet with
            | some error => error.code
            | none => if answers.platformGetIrq < 0 then answers.platformGetIrq else 0
  kthreadRun := answers.kthreadRun
  allocChrdevRegion := answers.allocChrdevRegion
  cdevAdd := answers.cdevAdd
  deviceCreate := Glue.deviceCreate taken nodeName answers.deviceCreate

/-! ## Remove, init and exit -/

/-- A device whose character device can be opened: the number of the structure its probe
allocated, the name of its node once the probe has returned 0, and what the kernel and the driver
keep for it. -/
structure Attached where
  device : Nat
  serial : Nat
  node : Option String
  probing : Probing

/-- The probe of the device has succeeded. -/
def Attached.bound (attached : Attached) : Bool := attached.node.isSome

/-- `cortex_forge_remove`: what it releases. -/
def cortexForgeRemove (num : Nat) (attached : Attached) : List (Use Resource) :=
  Use.releases [.node attached.device, .cdev attached.device, .region attached.device] ++
    ((accelStopWorkers num attached.probing.workers).calls.drop
      attached.probing.workers.calls.length).filterMap (workerUse attached.device)

/-- The kernel's removal of a device: the driver's `remove`, then the managed resources, last
first. -/
def detach (num : Nat) (attached : Attached) : List (Use Resource) :=
  cortexForgeRemove num attached ++ Use.releases attached.probing.devres.reverse

/-- `cortex_forge_init`. -/
def cortexForgeInit (classRegister driverRegister : Int32) : Int32 × List (Use Resource) :=
  if classRegister ≠ 0 then (classRegister, [])
  else if driverRegister ≠ 0 then
    (driverRegister, [.acquire .deviceClass, .release .deviceClass])
  else (0, [.acquire .deviceClass, .acquire .platformDriver])

/-- `cortex_forge_exit`: `platform_driver_unregister` removes the devices, last first. -/
def cortexForgeExit (num : Nat) (devices : List Attached) : List (Use Resource) :=
  devices.reverse.flatMap (detach num) ++ [.release .platformDriver, .release .deviceClass]

/-! ## Runs -/

/-- An open file. Its `private_data` is the structure with this number. -/
structure File where
  descriptor : Nat
  serial : Nat
deriving DecidableEq

/-- The module, the devices that are bound or whose probe is under way, and the open files. -/
structure State where
  loaded : Bool
  devices : List Attached
  probes : Nat
  files : List File

inductive Label where
  | init (classRegister driverRegister : Int32)
  | exit
  | probe (device : Nat) (answers : Answers)
  | createNode (device : Nat) (answer : Option ErrPtr)
  | remove (device : Nat)
  | openFile (descriptor device : Nat)
  | ioctl (descriptor : Nat)
  | closeFile (descriptor : Nat)

/-- What a run records: the uses, with the value that is returned or the number of the structure;
and the files that were opened, used and closed. -/
inductive Event where
  | init (ret : Int32) (uses : List (Use Resource))
  | exit (uses : List (Use Resource))
  | refused (device : Nat) (ret : Int32) (uses : List (Use Resource))
  | live (serial : Nat) (uses : List (Use Resource))
  | bound (serial : Nat) (uses : List (Use Resource))
  | failed (serial : Nat) (ret : Int32) (uses : List (Use Resource))
  | remove (serial : Nat) (uses : List (Use Resource))
  | opened (file : File)
  | ioctl (file : File)
  | closed (file : File)

def Event.uses : Event → List (Use Resource)
  | .init _ uses | .exit uses | .refused _ _ uses | .live _ uses | .bound _ uses
  | .failed _ _ uses | .remove _ uses => uses
  | .opened _ | .ioctl _ | .closed _ => []

namespace State

def device? (state : State) (device : Nat) : Option Attached :=
  state.devices.find? fun attached => attached.device == device

def file? (state : State) (descriptor : Nat) : Option File :=
  state.files.find? fun file => file.descriptor == descriptor

/-- The devices that are bound. -/
def bound (state : State) : List Attached := state.devices.filter Attached.bound

/-- The names of the device nodes there are. -/
def nodes (state : State) : List String := state.devices.filterMap Attached.node

/-- The devices but one. -/
def without (state : State) (device : Nat) : List Attached :=
  state.devices.filter fun other => other.device != device

/-- The kernel's probe of a device, until it fails or the character device can be opened. After
a failure the managed resources are released, last first. -/
def beginProbe (num : Nat) (identity : Nat → UInt32 × String) (device : Nat)
    (answers : Answers) (state : State) : Event × State :=
  match probeToCdev num identity device answers with
  | .error (ret, probing) =>
      (.refused device ret (probing.log ++ Use.releases probing.devres.reverse),
        { state with probes := state.probes + 1 })
  | .ok probing =>
      (.live state.probes probing.log,
        { state with
          devices := state.devices ++ [⟨device, state.probes, none, probing⟩]
          probes := state.probes + 1 })

/-- The rest of the probe. -/
def finishProbe (num : Nat) (answer : Option ErrPtr) (state : State) (attached : Attached) :
    Event × State :=
  match createNode num attached.device state.nodes answer attached.probing with
  | (ret, probing) =>
      if ret = 0 then
        (.bound attached.serial (probing.log.drop attached.probing.log.length),
          { state with
            devices := state.without attached.device ++
              [{ attached with node := some nodeName, probing := probing }] })
      else
        (.failed attached.serial ret (probing.log.drop attached.probing.log.length ++
            Use.releases probing.devres.reverse),
          { state with devices := state.without attached.device })

/-- One step: a call into the module, or into one of its devices and files. -/
def step (num : Nat) (identity : Nat → UInt32 × String) :
    Label → State → Option (Event × State)
  | .init classRegister driverRegister, state =>
      if state.loaded then none
      else
        match cortexForgeInit classRegister driverRegister with
        | (ret, uses) => some (.init ret uses, { state with loaded := ret == 0 })
  | .exit, state =>
      if state.loaded && state.files.isEmpty && state.devices.all Attached.bound then
        some (.exit (cortexForgeExit num state.devices),
          { state with loaded := false, devices := [] })
      else none
  | .probe device answers, state =>
      if state.loaded && (state.device? device).isNone then
        some (state.beginProbe num identity device answers)
      else none
  | .createNode device answer, state =>
      ((state.device? device).filter fun attached => !attached.bound).map
        (state.finishProbe num answer)
  | .remove device, state =>
      ((state.device? device).filter Attached.bound).map fun attached =>
        (.remove attached.serial (detach num attached),
          { state with devices := state.without device })
  | .openFile descriptor device, state =>
      if (state.file? descriptor).isNone then
        (state.device? device).map fun attached =>
          (.opened ⟨descriptor, attached.serial⟩,
            { state with files := ⟨descriptor, attached.serial⟩ :: state.files })
      else none
  | .ioctl descriptor, state => (state.file? descriptor).map fun file => (.ioctl file, state)
  | .closeFile descriptor, state =>
      (state.file? descriptor).map fun file =>
        (.closed file, { state with files := state.files.erase file })

end State

/-- The machine of the module. A run starts before it is loaded. -/
def machine (num : Nat) (identity : Nat → UInt32 × String) : Machine State Label Event where
  Initial := fun state => state = ⟨false, [], 0, []⟩
  step := State.step num identity

/-! ## The loops over the workers as uses -/

section Workers

variable (device : Nat)

theorem uses_of_starts (count : Nat) :
    ((List.range count).map fun index => WorkerCall.kthreadRun index .thread).filterMap
      (workerUse device) = Use.acquires (workerThreads device count) := by
  rw [List.filterMap_map, Use.acquires, workerThreads, List.map_map]
  exact congrFun (List.filterMap_eq_map (f := Use.acquire ∘ Resource.worker device)) _

theorem uses_of_stops (count : Nat) :
    ((List.range count).map fun index => WorkerCall.kthreadStop index .thread).filterMap
      (workerUse device) = Use.releases (workerThreads device count) := by
  rw [List.filterMap_map, Use.releases, workerThreads, List.map_map]
  exact congrFun (List.filterMap_eq_map (f := Use.release ∘ Resource.worker device)) _

/-- Stopping an array whose workers run releases them in order. -/
theorem stop_uses {num : Nat} (workers : Workers)
    (running : ∀ index < num, (workers.accelerators index).workerThread = .thread) :
    ((accelStopWorkers num workers).calls.drop workers.calls.length).filterMap
      (workerUse device) = Use.releases (workerThreads device num) := by
  rw [(accelStopWorkers_spec workers running).1, List.drop_left, uses_of_stops]

variable (identity : Nat → UInt32 × String)

/-- Starting all workers acquires them in order. -/
theorem start_uses (num : Nat) :
    (((Workers.init identity).startUpTo num).calls.drop
      (Workers.init identity).calls.length).filterMap (workerUse device) =
        Use.acquires (workerThreads device num) := by
  rw [Workers.startUpTo_calls, List.drop_left, uses_of_starts]

/-- A start that fails has released the workers before it. -/
theorem failed_start_uses (failing : Nat) (error : ErrPtr) :
    ((accelStopWorkers failing (((Workers.init identity).startUpTo failing).start failing
      (.err error.code))).calls.drop (Workers.init identity).calls.length).filterMap
        (workerUse device) =
      Use.acquires (workerThreads device failing) ++
        Use.releases (workerThreads device failing) := by
  have running (index : Nat) (below : index < failing) :
      ((((Workers.init identity).startUpTo failing).start failing
        (.err error.code)).accelerators index).workerThread = .thread := by
    rw [Workers.start]
    simp only [Function.update_of_ne (show index ≠ failing by omega)]
    exact (Workers.init identity).startUpTo_thread below
  rw [(accelStopWorkers_spec _ running).1, Workers.start, Workers.startUpTo_calls]
  simp only [List.append_assoc, List.drop_left, List.filterMap_append]
  rw [uses_of_starts, uses_of_stops]
  rfl

end Workers

/-! ## The exits of probe -/

/-- What a device holds while its probe is under way, in the order of its acquisition. -/
def liveResources (num device : Nat) : List Resource :=
  managed device ++ workerThreads device num ++ [.region device, .cdev device]

/-- Everything a bound device holds. -/
def deviceResources (num device : Nat) : List Resource :=
  liveResources num device ++ [.node device]

/-- What a probe that fails before `cdev_add` succeeds has done: it has acquired the first managed
resources, and workers and perhaps the region that it has given back. -/
def failureLog (device acquired started registered : Nat) : List (Use Resource) :=
  Use.acquires ((managed device).take acquired) ++
    (Use.acquires (workerThreads device started) ++
      (Use.acquires ((chardev device).take registered) ++
        Use.releases ((chardev device).take registered).reverse) ++
      Use.releases (workerThreads device started))

/-- The probe with a character device that can be opened. -/
def Probing.live (num : Nat) (identity : Nat → UInt32 × String) (device : Nat) : Probing :=
  ⟨(Workers.init identity).startUpTo num, managed device, Use.acquires (liveResources num device)⟩

/-- Up to `cdev_add`, probe fails with such a log or comes to this point. -/
inductive LiveExit (num : Nat) (identity : Nat → UInt32 × String) (device : Nat) :
    Except (Int32 × Probing) Probing → Prop
  | failed (ret : Int32) (probing : Probing) (acquired started registered : Nat)
      (negative : ret ≠ 0) (supplied : 0 < acquired ∨ started = 0 ∧ registered = 0)
      (devres : probing.devres = (managed device).take acquired)
      (log : probing.log = failureLog device acquired started registered) :
      LiveExit num identity device (.error (ret, probing))
  | live : LiveExit num identity device (.ok (Probing.live num identity device))

/-- From there it fails, having given back all but the managed resources, or succeeds. -/
inductive NodeExit (num : Nat) (identity : Nat → UInt32 × String) (device : Nat)
    (taken : List String) : Int32 × Probing → Prop
  | failed (ret : Int32) (probing : Probing) (negative : ret ≠ 0)
      (devres : probing.devres = managed device)
      (log : probing.log = Use.acquires (liveResources num device) ++
        Use.releases ([.cdev device, .region device] ++ workerThreads device num)) :
      NodeExit num identity device taken (ret, probing)
  | succeeded (free : nodeName ∉ taken) :
      NodeExit num identity device taken (0, ⟨(Workers.init identity).startUpTo num,
        managed device, Use.acquires (deviceResources num device)⟩)

section Exits

variable {num : Nat} {identity : Nat → UInt32 × String} {device : Nat} {taken : List String}
  {answers : Answers}

theorem Int32.ne_zero_of_neg {value : Int32} (negative : value < 0) : value ≠ 0 := by
  rintro rfl
  exact absurd negative (by decide)

/-- The probe that has acquired its managed resources. -/
def equipped (identity : Nat → UInt32 × String) (device : Nat) : Probing :=
  ⟨Workers.init identity, managed device, Use.acquires (managed device)⟩

/-- Stopping the workers behind some log that ends the registration. -/
theorem stopWorkers_log (log : List (Use Resource)) :
    (Probing.stopWorkers num device ⟨(Workers.init identity).startUpTo num, managed device,
      log⟩).log = log ++ Use.releases (workerThreads device num) := by
  simp only [Probing.stopWorkers, Probing.follow]
  rw [stop_uses device _ fun index below => (Workers.init identity).startUpTo_thread below]

/-- A node that was created had a name of its own. -/
theorem deviceCreate_free {name : String} {answer : Option ErrPtr}
    (created : deviceCreate taken name answer = none) : name ∉ taken := by
  intro member
  have present : taken.any (· == name) = true :=
    List.any_eq_true.mpr ⟨name, member, beq_self_eq_true name⟩
  rw [deviceCreate, if_pos present] at created
  cases created

theorem startAndAddCdev_exit :
    LiveExit num identity device
      (startAndAddCdev num device answers (equipped identity device)) := by
  rcases started_or_failed answers.kthreadRun num with
    started | ⟨failing, error, below, first, failed⟩
  · have starting : accelStartWorkers answers.kthreadRun num (equipped identity device).workers =
        (0, (Workers.init identity).startUpTo num) := accelStartWorkers_of_started _ started
    have followed : (equipped identity device).follow device
        ((Workers.init identity).startUpTo num) =
        ⟨(Workers.init identity).startUpTo num, managed device,
          Use.acquires (managed device) ++ Use.acquires (workerThreads device num)⟩ := by
      simp only [Probing.follow, equipped]
      rw [start_uses]
    simp only [startAndAddCdev, starting, followed, ne_eq, not_true_eq_false, ↓reduceIte]
    by_cases region : answers.allocChrdevRegion = 0
    · rw [if_neg (not_not.mpr region)]
      by_cases cdev : answers.cdevAdd = 0
      · rw [if_neg (not_not.mpr cdev)]
        have reached : Probing.live num identity device =
            Probing.acquire (.cdev device) (Probing.acquire (.region device)
              ⟨(Workers.init identity).startUpTo num, managed device,
                Use.acquires (managed device) ++ Use.acquires (workerThreads device num)⟩) := by
          simp [Probing.live, Probing.acquire, liveResources, Use.acquires]
        rw [← reached]
        exact .live
      · rw [if_pos cdev]
        refine .failed _ _ 4 num 1 cdev (Or.inl (by decide)) rfl ?_
        refine (stopWorkers_log _).trans ?_
        simp [failureLog, managed, chardev, Use.acquires, Use.releases, Probing.acquire]
    · rw [if_pos region]
      refine .failed _ _ 4 num 0 region (Or.inl (by decide)) rfl ?_
      refine (stopWorkers_log _).trans ?_
      simp [failureLog, managed, Use.acquires, Use.releases]
  · have starting : accelStartWorkers answers.kthreadRun num (equipped identity device).workers =
        (error.code, _) := accelStartWorkers_of_failed _ below first failed
    simp only [startAndAddCdev, starting, ne_eq, error.code_ne_zero, not_false_eq_true,
      ↓reduceIte]
    refine .failed _ _ 4 failing 0 error.code_ne_zero (Or.inl (by decide)) rfl ?_
    simp only [Probing.follow, equipped]
    rw [failed_start_uses]
    simp [failureLog, managed, Use.acquires, Use.releases]

theorem probeToCdev_exit :
    LiveExit num identity device (probeToCdev num identity device answers) := by
  unfold probeToCdev
  by_cases allocated : answers.kzalloc = false
  · rw [if_pos allocated]
    exact .failed _ _ 0 0 0 (show enomemCode ≠ 0 by decide) (Or.inr ⟨rfl, rfl⟩) rfl rfl
  rw [if_neg allocated]
  cases answers.ioremapResource with
  | some error => exact .failed _ _ 1 0 0 error.code_ne_zero (Or.inr ⟨rfl, rfl⟩) rfl rfl
  | none =>
      dsimp only
      by_cases noClocks : answers.clkBulkGetAll < 0
      · rw [if_pos noClocks]
        exact .failed _ _ 2 0 0 (Int32.ne_zero_of_neg noClocks) (Or.inr ⟨rfl, rfl⟩) rfl rfl
      rw [if_neg noClocks]
      cases answers.resetControlGet with
      | some error => exact .failed _ _ 3 0 0 error.code_ne_zero (Or.inr ⟨rfl, rfl⟩) rfl rfl
      | none =>
          dsimp only
          by_cases noIrq : answers.platformGetIrq < 0
          · rw [if_pos noIrq]
            exact .failed _ _ 4 0 0 (Int32.ne_zero_of_neg noIrq) (Or.inr ⟨rfl, rfl⟩) rfl rfl
          rw [if_neg noIrq]
          exact startAndAddCdev_exit

theorem createNode_exit (answer : Option ErrPtr) :
    NodeExit num identity device taken
      (createNode num device taken answer (Probing.live num identity device)) := by
  unfold createNode
  cases node : deviceCreate taken nodeName answer with
  | some error =>
      refine .failed error.code _ error.code_ne_zero rfl ((stopWorkers_log _).trans ?_)
      simp [Probing.release, Probing.live, Use.releases]
  | none =>
      have reached : Probing.acquire (.node device) (Probing.live num identity device) =
          ⟨(Workers.init identity).startUpTo num, managed device,
            Use.acquires (deviceResources num device)⟩ := by
        simp [Probing.live, Probing.acquire, deviceResources, Use.acquires]
      simp only [reached]
      exact .succeeded (deviceCreate_free node)

end Exits

/-! ## The probe of `Driver.Probe` -/

section Summary

variable {num : Nat} {identity : Nat → UInt32 × String} {device : Nat} {taken : List String}
  {answers : Answers}

/-- The workers and the character device, as `Driver.Probe` has them. -/
theorem startAndAddCdev_summary (probing : Probing) (result : Int32 × Probing)
    (isResult : result = match startAndAddCdev num device answers probing with
      | .error result => result
      | .ok probing => createNode num device taken answers.deviceCreate probing) :
    (result.1, result.2.workers) =
      match accelStartWorkers answers.kthreadRun num probing.workers with
      | (ret, workers) =>
          if ¬ ret = 0 then (ret, workers)
          else if ¬ answers.allocChrdevRegion = 0 then
            (answers.allocChrdevRegion, accelStopWorkers num workers)
          else if ¬ answers.cdevAdd = 0 then (answers.cdevAdd, accelStopWorkers num workers)
          else
            match deviceCreate taken nodeName answers.deviceCreate with
            | some error => (error.code, accelStopWorkers num workers)
            | none => (0, workers) := by
  subst isResult
  unfold startAndAddCdev createNode
  obtain ⟨ret, workers⟩ := accelStartWorkers answers.kthreadRun num probing.workers
  by_cases failed : ret = 0
  · by_cases region : answers.allocChrdevRegion = 0
    · by_cases cdev : answers.cdevAdd = 0
      · cases deviceCreate taken nodeName answers.deviceCreate with
        | some error => simp [failed, region, cdev, Probing.follow, Probing.acquire,
            Probing.release, Probing.stopWorkers]
        | none => simp [failed, region, cdev, Probing.follow, Probing.acquire]
      · simp [failed, region, cdev, Probing.follow, Probing.acquire, Probing.release,
          Probing.stopWorkers]
    · simp [failed, region, Probing.follow, Probing.stopWorkers]
  · simp [failed, Probing.follow]

/-- The two descriptions of probe agree on its return value and on the array of
accelerators. -/
theorem cortexForgeProbe_summary :
    ((cortexForgeProbe num identity device taken answers).1,
        (cortexForgeProbe num identity device taken answers).2.workers) =
      CortexForge.cortexForgeProbe num identity (answers.summary taken) := by
  have codes (error : ErrPtr) := error.code_ne_zero
  unfold cortexForgeProbe probeToCdev CortexForge.cortexForgeProbe Answers.summary
  by_cases allocated : answers.kzalloc = false
  · simp [allocated, Probing.start, show enomemCode ≠ 0 by decide]
  cases answers.ioremapResource with
  | some error => simp [allocated, codes, Probing.manage, Probing.start]
  | none =>
      by_cases noClocks : answers.clkBulkGetAll < 0
      · simp [allocated, noClocks, Int32.ne_zero_of_neg noClocks, Probing.manage, Probing.start]
      cases answers.resetControlGet with
      | some error => simp [allocated, noClocks, codes, Probing.manage, Probing.start]
      | none =>
          by_cases noIrq : answers.platformGetIrq < 0
          · simp [allocated, noClocks, noIrq, Int32.ne_zero_of_neg noIrq, Probing.manage,
              Probing.start]
          simp only [allocated, noClocks, noIrq, ↓reduceIte, ne_eq]
          exact startAndAddCdev_summary _ _ rfl

end Summary

end CortexForge.Glue
