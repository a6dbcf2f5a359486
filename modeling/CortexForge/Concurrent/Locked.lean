import CortexForge.Foundation.ListOps
import CortexForge.Concurrent.System

/-!
Contract: the running driver with its locks and its list pointers, one memory access at a
time.

Sources: `src/task_manager.c`, `src/accel_manager.c` and `src/chardev.c`. The machine of
`Concurrent.System` makes a section under a lock one step and keeps the lists as lists.
Here a lock is taken and given back by steps of their own, and in between every load and
every store is a step: the pointers of the lists, the words that `memset` clears, the
seven payload fields of a submission, the fields that `accel_get_info` copies, and the
load and the store of an update of `load_percent`. Outside these places a thread takes the
steps of its program in `Concurrent.Client` and `Concurrent.Worker`.

A thread that is about to follow a pointer that is no list node crashes.

Owns: the memory, the program counters inside the sections, and the machine.

Does not own: what the machine has to do with that of `Concurrent.System`.
-/

namespace CortexForge.Concurrent

open CortexForge.Foundation
open CortexForge.Foundation.Links (ListOp)

/-! ## Memory -/

/-- The nodes of the driver's lists: the heads, and the `entry` of every task. -/
inductive ListNode where
  | freeTasks
  | taskQueue (accel : AccelIndex)
  | activeTasks (accel : AccelIndex)
  | entry (slot : Slot)
deriving DecidableEq

/-- `task_lock` of the device and `lock` of each accelerator. -/
inductive Lock where
  | task
  | accel (index : AccelIndex)
deriving DecidableEq

/-- An accelerator without its lists. -/
def bareAccel (accel : Accel) : Accel :=
  { accel with taskQueue := [], activeTasks := [] }

/-- A device without its lists. -/
def bareDev (dev : Dev) : Dev :=
  { dev with freeTasks := [], accelerators := fun index => bareAccel (dev.accelerators index) }

/-- The memory the threads share. `dev` is used for everything but its lists, which are in
`links`. -/
structure Memory where
  dev : Dev
  links : Links ListNode
  owner : Lock → Option Actor

namespace Memory

/-- `spin_lock_irqsave` and `mutex_lock`: possible while nobody holds the lock. -/
def acquire (memory : Memory) (lock : Lock) (actor : Actor) : Option Memory :=
  if memory.owner lock = none then
    some { memory with owner := Function.update memory.owner lock (some actor) }
  else none

/-- `spin_unlock_irqrestore` and `mutex_unlock`. -/
def release (memory : Memory) (lock : Lock) : Memory :=
  { memory with owner := Function.update memory.owner lock none }

def modifyTask (memory : Memory) (slot : Slot) (change : Task → Task) : Memory :=
  { memory with dev := memory.dev.modifyTask slot change }

def modifyAccel (memory : Memory) (index : AccelIndex) (change : Accel → Accel) : Memory :=
  { memory with dev := memory.dev.modifyAccel index change }

/-- One access of a list operation: the thread goes on with it, goes past it, or crashes. -/
def listStep {Pc : Type} (memory : Memory) (op : ListOp ListNode) (going : ListOp ListNode → Pc)
    (past crashed : Pc) : Memory × Pc :=
  match op.step memory.links with
  | none => (memory, crashed)
  | some (links, some next) => ({ memory with links := links }, going next)
  | some (links, none) => ({ memory with links := links }, past)

end Memory

/-- The words of a task, in the order of `struct cortex_forge_task`. -/
inductive TaskWord where
  | id
  | state
  | accelType
  | priority
  | inputAddr
  | inputSize
  | outputAddr
  | outputSize
  | timeoutMs
  | submitJiffies
  | completeJiffies
  | errorCode
  | entryNext
  | entryPrev
  | done
deriving DecidableEq

/-- A word of a task is cleared; the list pointers are not in the task itself. -/
def TaskWord.clear : TaskWord → Task → Task
  | .id, task => { task with id := 0 }
  | .state, task => { task with state := .free }
  | .accelType, task => { task with accelType := 0 }
  | .priority, task => { task with priority := 0 }
  | .inputAddr, task => { task with inputAddr := 0 }
  | .inputSize, task => { task with inputSize := 0 }
  | .outputAddr, task => { task with outputAddr := 0 }
  | .outputSize, task => { task with outputSize := 0 }
  | .timeoutMs, task => { task with timeoutMs := 0 }
  | .submitJiffies, task => { task with submitJiffies := 0 }
  | .completeJiffies, task => { task with completeJiffies := 0 }
  | .errorCode, task => { task with errorCode := 0 }
  | .done, task => { task with done := false }
  | .entryNext, task => task
  | .entryPrev, task => task

def TaskWord.clearLinks (slot : Slot) : TaskWord → Links ListNode → Links ListNode
  | .entryNext, links => links.setNext (.entry slot) .null
  | .entryPrev, links => links.setPrev (.entry slot) .null
  | _, links => links

/-- `memset` comes to one word. -/
def Memory.clearWord (memory : Memory) (slot : Slot) (word : TaskWord) : Memory :=
  { memory with
    dev := memory.dev.modifyTask slot word.clear
    links := word.clearLinks slot memory.links }

/-- The words `memset` clears after the first. -/
def laterWords : List TaskWord :=
  [.state, .accelType, .priority, .inputAddr, .inputSize, .outputAddr, .outputSize, .timeoutMs,
    .submitJiffies, .completeJiffies, .errorCode, .entryNext, .entryPrev, .done]

/-- The fields of a task that the SUBMIT handler stores, in order. -/
inductive PayloadField where
  | accelType
  | priority
  | inputAddr
  | inputSize
  | outputAddr
  | outputSize
  | timeoutMs
deriving DecidableEq

def PayloadField.store (desc : TaskDesc) : PayloadField → Task → Task
  | .accelType, task => { task with accelType := desc.accelType }
  | .priority, task => { task with priority := desc.priority }
  | .inputAddr, task => { task with inputAddr := desc.inputAddr }
  | .inputSize, task => { task with inputSize := desc.inputSize }
  | .outputAddr, task => { task with outputAddr := desc.outputAddr }
  | .outputSize, task => { task with outputSize := desc.outputSize }
  | .timeoutMs, task => { task with timeoutMs := desc.timeoutMs }

/-- The fields that are stored after `accel_type` and `priority`. -/
def laterFields : List PayloadField :=
  [.inputAddr, .inputSize, .outputAddr, .outputSize, .timeoutMs]

/-- The fields that `accel_get_info` copies. -/
inductive InfoField where
  | freqHz
  | tempCelsius
  | loadPercent
  | fwVersion
  | hwVersion
  | memTotal
  | memFree
  | state
deriving DecidableEq

def InfoField.load (accel : Accel) : InfoField → AccelInfo → AccelInfo
  | .freqHz, info => { info with freqHz := accel.freqHz }
  | .tempCelsius, info => { info with tempCelsius := accel.tempCelsius }
  | .loadPercent, info => { info with loadPercent := accel.loadPercent }
  | .fwVersion, info => { info with fwVersion := accel.fwVersion }
  | .hwVersion, info => { info with hwVersion := accel.hwVersion }
  | .memTotal, info => { info with memTotal := accel.memTotal }
  | .memFree, info => { info with memFree := accel.memFree }
  | .state, info => { info with state := accel.state }

/-- The order in which `accel_get_info` copies them. -/
def infoFields : List InfoField :=
  [.freqHz, .tempCelsius, .loadPercent, .fwVersion, .hwVersion, .memTotal, .memFree, .state]

/-! ## Clients -/

/-- `task_alloc` from the lock to the unlock. -/
inductive AllocPhase where
  | testEmpty
  | first
  | del (slot : Slot) (op : ListOp ListNode)
  | memset (slot : Slot) (word : TaskWord) (rest : List TaskWord)
  | initCompletion (slot : Slot)
  | nextId (slot : Slot)
  | writeId (slot : Slot) (taskId : UInt32)
  | unlock (result : Option Slot)
deriving DecidableEq

/-- The mutex section of `task_submit`. -/
inductive EnqueuePhase where
  | add (op : ListOp ListNode)
  | unlock
deriving DecidableEq

/-- `task_free` from the lock to the unlock. -/
inductive FreePhase where
  | writeState
  | add (op : ListOp ListNode)
  | unlock
deriving DecidableEq

inductive LockedClientPc where
  | outside (pc : ClientPc)
  | alloc (desc : TaskDesc) (accel : AccelIndex) (phase : AllocPhase)
  | fill (desc : TaskDesc) (accel : AccelIndex) (slot : Slot) (field : PayloadField)
      (rest : List PayloadField)
  | enqueue (desc : TaskDesc) (accel : AccelIndex) (slot : Slot) (phase : EnqueuePhase)
  | free (desc : TaskDesc) (accel : AccelIndex) (slot : Slot) (ret : Int) (phase : FreePhase)
  | info (info : AccelInfo) (accel : AccelIndex) (rest : List InfoField)
  | crashed
deriving DecidableEq

def allocStep (memory : Memory) (desc : TaskDesc) (accel : AccelIndex) :
    AllocPhase → Memory × LockedClientPc
  | .testEmpty =>
      if memory.links.listEmpty .freeTasks then (memory, .alloc desc accel (.unlock none))
      else (memory, .alloc desc accel .first)
  | .first =>
      match memory.links.next .freeTasks with
      | .node (.entry slot) => (memory, .alloc desc accel (.del slot (.del (.entry slot))))
      | _ => (memory, .crashed)
  | .del slot op =>
      memory.listStep op (fun next => .alloc desc accel (.del slot next))
        (.alloc desc accel (.memset slot .id laterWords)) .crashed
  | .memset slot word [] => (memory.clearWord slot word, .alloc desc accel (.initCompletion slot))
  | .memset slot word (next :: rest) =>
      (memory.clearWord slot word, .alloc desc accel (.memset slot next rest))
  | .initCompletion slot =>
      (memory.modifyTask slot fun task => { task with done := false },
        .alloc desc accel (.nextId slot))
  | .nextId slot =>
      ({ memory with dev := { memory.dev with nextTaskId := memory.dev.nextTaskId + 1 } },
        .alloc desc accel (.writeId slot (memory.dev.nextTaskId + 1)))
  | .writeId slot taskId =>
      (memory.modifyTask slot fun task => { task with id := taskId },
        .alloc desc accel (.unlock (some slot)))
  | .unlock none =>
      (memory.release .task, .outside (.returned (.submit Errno.enomem.ret desc)))
  | .unlock (some slot) => (memory.release .task, .outside (.submit desc accel (.fill slot)))

def fillStep (memory : Memory) (desc : TaskDesc) (accel : AccelIndex) (slot : Slot)
    (field : PayloadField) : List PayloadField → Memory × LockedClientPc
  | [] => (memory.modifyTask slot (field.store desc), .outside (.submit desc accel (.check slot)))
  | next :: rest => (memory.modifyTask slot (field.store desc), .fill desc accel slot next rest)

def enqueueStep (memory : Memory) (desc : TaskDesc) (accel : AccelIndex) (slot : Slot) :
    EnqueuePhase → Memory × LockedClientPc
  | .add op =>
      memory.listStep op (fun next => .enqueue desc accel slot (.add next))
        (.enqueue desc accel slot .unlock) .crashed
  | .unlock => (memory.release (.accel accel), .outside (.submit desc accel (.wakeUp slot)))

def freeStep (memory : Memory) (desc : TaskDesc) (accel : AccelIndex) (slot : Slot) (ret : Int) :
    FreePhase → Memory × LockedClientPc
  | .writeState =>
      (memory.modifyTask slot fun task => { task with state := .free },
        .free desc accel slot ret (.add (.addTail (.entry slot) .freeTasks)))
  | .add op =>
      memory.listStep op (fun next => .free desc accel slot ret (.add next))
        (.free desc accel slot ret .unlock) .crashed
  | .unlock => (memory.release .task, .outside (.returned (.submit ret desc)))

def infoStep (memory : Memory) (info : AccelInfo) (accel : AccelIndex) :
    List InfoField → Memory × LockedClientPc
  | [] => (memory.release (.accel accel), .outside (.copyInfo info))
  | field :: rest =>
      (memory, .info (field.load (memory.dev.accelerators accel) info) accel rest)

/-- A step of a client that is in no section: it takes a lock, makes the first payload store,
or takes a step of its program. -/
def outsideStep (kernel : Kernel) (memory : Memory) (now : UInt64) (thread : Nat)
    (input : ClientInput) : ClientPc → Option (Memory × LockedClientPc)
  | .submit desc accel .alloc =>
      (memory.acquire .task (.client thread)).map fun memory =>
        (memory, .alloc desc accel .testEmpty)
  | .submit desc accel (.fill slot) =>
      some (memory.modifyTask slot (PayloadField.accelType.store desc),
        .fill desc accel slot .priority laterFields)
  | .submit desc accel (.enqueue slot) =>
      (memory.acquire (.accel accel) (.client thread)).map fun memory =>
        (memory, .enqueue desc accel slot (.add (.addTail (.entry slot) (.taskQueue accel))))
  | .submit desc accel (.rollback slot ret) =>
      (memory.acquire .task (.client thread)).map fun memory =>
        (memory, .free desc accel slot ret .writeState)
  | .accelInfo info accel =>
      (memory.acquire (.accel accel) (.client thread)).map fun memory =>
        (memory, .info info accel infoFields)
  | pc =>
      (clientStep kernel memory.dev now input pc).map fun (action, next) =>
        ({ memory with dev := action.apply memory.dev }, .outside next)

/-- One step of a client thread. A new call is made only by a thread that is in none. -/
def lockedClientStep (kernel : Kernel) (memory : Memory) (now : UInt64) (thread : Nat) :
    ClientInput → LockedClientPc → Option (Memory × LockedClientPc)
  | .call call copied, .outside pc =>
      (clientStep kernel memory.dev now (.call call copied) pc).map fun (action, next) =>
        ({ memory with dev := action.apply memory.dev }, .outside next)
  | .advance choice, .outside pc => outsideStep kernel memory now thread (.advance choice) pc
  | .advance _, .alloc desc accel phase => some (allocStep memory desc accel phase)
  | .advance _, .fill desc accel slot field rest =>
      some (fillStep memory desc accel slot field rest)
  | .advance _, .enqueue desc accel slot phase => some (enqueueStep memory desc accel slot phase)
  | .advance _, .free desc accel slot ret phase =>
      some (freeStep memory desc accel slot ret phase)
  | .advance _, .info info accel rest => some (infoStep memory info accel rest)
  | _, _ => none

/-! ## Workers -/

/-- The first mutex section of the worker's loop. -/
inductive DequeuePhase where
  | testEmpty
  | first
  | del (slot : Slot) (op : ListOp ListNode)
  | add (slot : Slot) (op : ListOp ListNode)
  | unlock (result : Option Slot)
deriving DecidableEq

/-- The second one. -/
inductive UnlinkPhase where
  | del (op : ListOp ListNode)
  | unlock
deriving DecidableEq

inductive LockedWorkerPc where
  | outside (pc : WorkerPc)
  | dequeue (phase : DequeuePhase)
  | raiseLoad (slot : Slot) (loaded : UInt32)
  | lowerLoad (slot : Slot) (loaded : UInt32)
  | unlink (slot : Slot) (phase : UnlinkPhase)
  | crashed
deriving DecidableEq

def dequeueStep (memory : Memory) (accel : AccelIndex) :
    DequeuePhase → Memory × LockedWorkerPc
  | .testEmpty =>
      if memory.links.listEmpty (.taskQueue accel) then (memory, .dequeue (.unlock none))
      else (memory, .dequeue .first)
  | .first =>
      match memory.links.next (.taskQueue accel) with
      | .node (.entry slot) => (memory, .dequeue (.del slot (.del (.entry slot))))
      | _ => (memory, .crashed)
  | .del slot op =>
      memory.listStep op (fun next => .dequeue (.del slot next))
        (.dequeue (.add slot (.addTail (.entry slot) (.activeTasks accel)))) .crashed
  | .add slot op =>
      memory.listStep op (fun next => .dequeue (.add slot next))
        (.dequeue (.unlock (some slot))) .crashed
  | .unlock none => (memory.release (.accel accel), .outside .loop)
  | .unlock (some slot) =>
      (memory.release (.accel accel), .outside (.exec slot .writeRunning))

def unlinkStep (memory : Memory) (accel : AccelIndex) (slot : Slot) :
    UnlinkPhase → Memory × LockedWorkerPc
  | .del op =>
      memory.listStep op (fun next => .unlink slot (.del next)) (.unlink slot .unlock) .crashed
  | .unlock => (memory.release (.accel accel), .outside .loop)

/-- One step of `accel_worker_thread`. The condition of its wait reads the head of the queue
without the mutex. -/
def lockedWorkerStep (kernel : Kernel) (memory : Memory) (now : UInt64) (expired : Bool)
    (accel : AccelIndex) : LockedWorkerPc → Option (Memory × LockedWorkerPc)
  | .outside .testQueue =>
      if memory.links.listEmpty (.taskQueue accel) then some (memory, .outside .testRunning)
      else some (memory, .outside .finishWait)
  | .outside .dequeue =>
      (memory.acquire (.accel accel) (.worker accel)).map fun memory =>
        (memory, .dequeue .testEmpty)
  | .outside (.exec slot .raiseLoad) =>
      some (memory, .raiseLoad slot (memory.dev.accelerators accel).loadPercent)
  | .outside (.exec slot .lowerLoad) =>
      some (memory, .lowerLoad slot (memory.dev.accelerators accel).loadPercent)
  | .outside (.exec slot .unlink) =>
      (memory.acquire (.accel accel) (.worker accel)).map fun memory =>
        (memory, .unlink slot (.del (.del (.entry slot))))
  | .outside pc =>
      (workerStep kernel memory.dev now expired accel pc).map fun (action, next) =>
        ({ memory with dev := action.apply memory.dev }, .outside next)
  | .dequeue phase => some (dequeueStep memory accel phase)
  | .raiseLoad slot loaded =>
      some (memory.modifyAccel accel fun unit =>
        { unit with loadPercent := CortexForge.raiseLoad loaded },
        .outside (.exec slot .testTimeout))
  | .lowerLoad slot loaded =>
      some (memory.modifyAccel accel fun unit =>
        { unit with loadPercent := CortexForge.lowerLoad loaded },
        .outside (.exec slot .completeAll))
  | .unlink slot phase => some (unlinkStep memory accel slot phase)
  | .crashed => none

/-- The step of its program that a worker is at. A worker that has crashed is at none; all
that anybody asks about it is whether it has left its thread function. -/
def LockedWorkerPc.view : LockedWorkerPc → WorkerPc
  | .outside pc => pc
  | .dequeue _ => .dequeue
  | .raiseLoad slot _ => .exec slot .raiseLoad
  | .lowerLoad slot _ => .exec slot .lowerLoad
  | .unlink slot _ => .exec slot .unlink
  | .crashed => .loop

/-! ## The machine -/

/-- The whole system. -/
structure Locked where
  memory : Memory
  ticks : Nat
  clients : Nat → LockedClientPc
  workers : AccelIndex → LockedWorkerPc
  stopper : StopperPc

def Locked.jiffies (locked : Locked) : UInt64 := UInt64.ofNat locked.ticks

/-- Where a client is that is in no section. -/
def LockedClientPc.outside? : LockedClientPc → Option ClientPc
  | .outside pc => some pc
  | _ => none

/-- What a run records of one step: the thread, and, for a client that is in no section after
it, where the client is. -/
structure LockedEvent where
  actor : Actor
  place : Option ClientPc
deriving DecidableEq

/-- One step of the system. -/
def lockedStep (kernel : Kernel) : Label → Locked → Option (LockedEvent × Locked)
  | .client thread input, locked =>
      (lockedClientStep kernel locked.memory locked.jiffies thread input
        (locked.clients thread)).map fun (memory, pc) =>
          (⟨.client thread, pc.outside?⟩,
            { locked with
              memory := memory
              clients := Function.update locked.clients thread pc })
  | .worker accel expired, locked =>
      (lockedWorkerStep kernel locked.memory locked.jiffies expired accel
        (locked.workers accel)).map fun (memory, pc) =>
          (⟨.worker accel, none⟩,
            { locked with
              memory := memory
              workers := Function.update locked.workers accel pc })
  | .stopper, locked =>
      (stopperStep locked.memory.dev (fun accel => (locked.workers accel).view)
        locked.stopper).map fun (action, pc) =>
          (⟨.stopper, none⟩,
            { locked with
              memory := { locked.memory with dev := action.apply locked.memory.dev }
              stopper := pc })
  | .tick, locked => some (⟨.clock, none⟩, { locked with ticks := locked.ticks + 1 })

/-- The lists as `cortex_forge_probe` builds them: `INIT_LIST_HEAD` of the free list,
`task_pool_init`, and `accel_init` of every accelerator, in memory that is zeroed. -/
def bootLinks : Option (Links ListNode) :=
  let zeroed : Links ListNode := ⟨fun _ => .null, fun _ => .null⟩
  ((List.finRange maxTasks).foldlM
    (fun (links : Links ListNode) slot => links.listAddTail (.entry slot) .freeTasks)
    (zeroed.initListHead .freeTasks)).map fun links =>
      (List.finRange numAccelerators).foldl
        (fun links accel =>
          (links.initListHead (.taskQueue accel)).initListHead (.activeTasks accel)) links

/-- The system after a successful probe. -/
def lockedInitial (ticks : Nat) (links : Links ListNode) : Locked where
  memory := ⟨bareDev probe, links, fun _ => none⟩
  ticks := ticks
  clients := fun _ => .outside .idle
  workers := fun _ => .outside .loop
  stopper := .idle

def lockedMachine (kernel : Kernel) : Machine Locked Label LockedEvent where
  Initial := fun locked => ∃ ticks links, bootLinks = some links ∧
    locked = lockedInitial ticks links
  step := lockedStep kernel

/-! ## Inversion -/

/-- A step is the step of one thread. -/
inductive LockedStepped (kernel : Kernel) (locked : Locked) : LockedEvent → Locked → Prop
  | client (thread : Nat) (input : ClientInput) (memory : Memory) (pc : LockedClientPc)
      (moved : lockedClientStep kernel locked.memory locked.jiffies thread input
        (locked.clients thread) = some (memory, pc)) :
      LockedStepped kernel locked ⟨.client thread, pc.outside?⟩
        { locked with
          memory := memory
          clients := Function.update locked.clients thread pc }
  | worker (accel : AccelIndex) (expired : Bool) (memory : Memory) (pc : LockedWorkerPc)
      (moved : lockedWorkerStep kernel locked.memory locked.jiffies expired accel
        (locked.workers accel) = some (memory, pc)) :
      LockedStepped kernel locked ⟨.worker accel, none⟩
        { locked with
          memory := memory
          workers := Function.update locked.workers accel pc }
  | stopper (action : Action) (pc : StopperPc)
      (moved : stopperStep locked.memory.dev (fun accel => (locked.workers accel).view)
        locked.stopper = some (action, pc)) :
      LockedStepped kernel locked ⟨.stopper, none⟩
        { locked with
          memory := { locked.memory with dev := action.apply locked.memory.dev }
          stopper := pc }
  | tick : LockedStepped kernel locked ⟨.clock, none⟩ { locked with ticks := locked.ticks + 1 }

section Inversion

variable {kernel : Kernel} {locked next : Locked} {event : LockedEvent} {label : Label}

theorem lockedStepped_of_step
    (taken : (lockedMachine kernel).step label locked = some (event, next)) :
    LockedStepped kernel locked event next := by
  change lockedStep kernel label locked = some (event, next) at taken
  cases label with
  | client thread input =>
      simp only [lockedStep, Option.map_eq_some_iff, Prod.exists, Prod.mk.injEq] at taken
      obtain ⟨memory, pc, moved, rfl, rfl⟩ := taken
      exact .client thread input memory pc moved
  | worker accel expired =>
      simp only [lockedStep, Option.map_eq_some_iff, Prod.exists, Prod.mk.injEq] at taken
      obtain ⟨memory, pc, moved, rfl, rfl⟩ := taken
      exact .worker accel expired memory pc moved
  | stopper =>
      simp only [lockedStep, Option.map_eq_some_iff, Prod.exists, Prod.mk.injEq] at taken
      obtain ⟨action, pc, moved, rfl, rfl⟩ := taken
      exact .stopper action pc moved
  | tick =>
      simp only [lockedStep, Option.some.injEq, Prod.mk.injEq] at taken
      obtain ⟨rfl, rfl⟩ := taken
      exact .tick

/-- A step of a client is its own, or leaves it where it is. -/
theorem client_of_step (taken : (lockedMachine kernel).step label locked = some (event, next))
    (thread : Nat) :
    (event.actor = .client thread ∧ ∃ input, lockedClientStep kernel locked.memory locked.jiffies
        thread input (locked.clients thread) = some (next.memory, next.clients thread)) ∨
      (event.actor ≠ .client thread ∧ next.clients thread = locked.clients thread) := by
  cases lockedStepped_of_step taken with
  | client other input memory pc moved =>
      by_cases same : thread = other
      · subst same
        exact .inl ⟨rfl, input, by simpa using moved⟩
      · exact .inr ⟨by simpa using Ne.symm same, by simp [same]⟩
  | _ => exact .inr ⟨by simp, rfl⟩

/-- The same for a worker. -/
theorem worker_of_step (taken : (lockedMachine kernel).step label locked = some (event, next))
    (accel : AccelIndex) :
    (event.actor = .worker accel ∧ ∃ expired, lockedWorkerStep kernel locked.memory locked.jiffies
        expired accel (locked.workers accel) = some (next.memory, next.workers accel)) ∨
      (event.actor ≠ .worker accel ∧ next.workers accel = locked.workers accel) := by
  cases lockedStepped_of_step taken with
  | worker other expired memory pc moved =>
      by_cases same : accel = other
      · subst same
        exact .inl ⟨rfl, expired, by simpa using moved⟩
      · exact .inr ⟨by simpa using Ne.symm same, by simp [same]⟩
  | _ => exact .inr ⟨by simp, rfl⟩

end Inversion

end CortexForge.Concurrent
