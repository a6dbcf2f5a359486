import CortexForge.Foundation.Mutex
import CortexForge.Concurrent.Sections
import CortexForge.Concurrent.Placement
import CortexForge.Concurrent.Renaming

/-!
Contract: the memory of the driver realizes a state of its machine.

A state of the machine of `Concurrent.System` says what the lists, the tasks and the
accelerators are. The memory of `Concurrent.Locked` realizes it: the lists of a lock that
nobody holds are the rings of the lists, the threads inside sections stand where the state
says they are, and tasks and accelerators are what they should be. Every lock has its own
list nodes, so a thread inside one section does not see what happens in another.

Owns: the realization, the nodes of each lock, and that a step of one thread leaves the
rest of the realization alone.
-/

namespace CortexForge.Concurrent

open CortexForge.Foundation
open CortexForge.Foundation.Links (ListOp SameAt Adding Deleting)

/-! ## The memory against the state -/

/-- What `task_lock` guards, in a memory that should realize a device. -/
def poolView (memory : Memory) (dev : Dev) : PoolView where
  links := memory.links
  stored := memory.dev.nextTaskId
  issued := dev.nextTaskId
  free := dev.freeTasks

/-- What the mutex of an accelerator guards. -/
def queueView (memory : Memory) (dev : Dev) (accel : AccelIndex) : QueueView where
  links := memory.links
  queue := (dev.accelerators accel).taskQueue
  active := (dev.accelerators accel).activeTasks

/-- What a lock guards is in order. -/
def AtRest (memory : Memory) (dev : Dev) : Lock → Prop
  | .task => (poolView memory dev).AtRest
  | .accel index => (queueView memory dev index).AtRest index

/-- The step of its program that a thread inside `task_alloc` is at. -/
def AllocPhase.view : AllocPhase → SubmitPhase
  | .unlock (some slot) => .fill slot
  | _ => .alloc

/-- A thread in the middle of `accel_get_info`: before `load_percent` is loaded the snapshot
is still to be taken, after it the fields left to load are as they were. -/
inductive InInfo (unit : Accel) (accel : AccelIndex) : AccelInfo → List InfoField → ClientPc → Prop
  | before {info : AccelInfo} {rest : List InfoField} (original : AccelInfo)
      (loaded : List InfoField) (split : infoFields = loaded ++ rest)
      (notLoaded : .loadPercent ∉ loaded)
      (partly : info = loaded.foldl (fun image field => field.load unit image) original) :
      InInfo unit accel info rest (.accelInfo original accel)
  | after {info : AccelInfo} {rest : List InfoField} (loaded : .loadPercent ∉ rest) :
      InInfo unit accel info rest
        (.copyInfo (rest.foldl (fun image field => field.load unit image) info))

/-- A client of the machine of locks stands where a client of the other machine does. -/
def ClientStands (memory : Memory) (dev : Dev) : LockedClientPc → ClientPc → Prop
  | .outside pc, view => view = pc
  | .alloc desc accel phase, view =>
      view = .submit desc accel phase.view ∧ (poolView memory dev).InAlloc phase
  | .fill desc accel slot field rest, view =>
      view = .submit desc accel (.fill slot) ∧
        (field :: rest).foldl (fun task next => next.store desc task) (memory.dev.tasks slot) =
          fillTask desc (dev.tasks slot)
  | .enqueue desc accel slot (.add op), view =>
      view = .submit desc accel (.enqueue slot) ∧
        (queueView memory dev accel).InEnqueue accel slot op
  | .enqueue desc accel slot .unlock, view =>
      view = .submit desc accel (.wakeUp slot) ∧ (queueView memory dev accel).AtRest accel
  | .free desc accel slot ret _, view => view = .submit desc accel (.rollback slot ret)
  | .info info accel rest, view =>
      (queueView memory dev accel).AtRest accel ∧
        InInfo (memory.dev.accelerators accel) accel info rest view
  | .crashed, _ => False

/-- The same for a worker, whose place is `LockedWorkerPc.view`. -/
def WorkerStands (memory : Memory) (dev : Dev) (accel : AccelIndex) : LockedWorkerPc → Prop
  | .outside _ => True
  | .dequeue phase => (queueView memory dev accel).InDequeue accel phase
  | .raiseLoad _ loaded => loaded = (dev.accelerators accel).loadPercent
  | .lowerLoad _ loaded => loaded = (dev.accelerators accel).loadPercent
  | .unlink slot phase => (queueView memory dev accel).InUnlink accel slot phase
  | .crashed => False

/-- The lock of the section a client is in. -/
def LockedClientPc.lock? : LockedClientPc → Option Lock
  | .alloc _ _ _ | .free _ _ _ _ _ => some .task
  | .enqueue _ accel _ _ | .info _ accel _ => some (.accel accel)
  | .outside _ | .fill _ _ _ _ _ | .crashed => none

def LockedWorkerPc.lock? (accel : AccelIndex) : LockedWorkerPc → Option Lock
  | .dequeue _ | .unlink _ _ => some (.accel accel)
  | .outside _ | .raiseLoad _ _ | .lowerLoad _ _ | .crashed => none

/-- The lock of the section a thread is in. -/
def Locked.inside (locked : Locked) : Actor → Option Lock
  | .client thread => (locked.clients thread).lock?
  | .worker accel => (locked.workers accel).lock? accel
  | .stopper | .clock => none

/-- The task a client is in the middle of filling. -/
def LockedClientPc.filling : LockedClientPc → Option Slot
  | .fill _ _ slot _ _ => some slot
  | _ => none

/-- The memory and the threads of the machine of locks realize a state of the other machine. -/
structure Realizes (locked : Locked) (system : System) : Prop where
  ticks : system.ticks = locked.ticks
  stopper : system.stopper = locked.stopper
  views : ∀ accel, system.workers accel = (locked.workers accel).view
  clients : ∀ thread,
    ClientStands locked.memory system.dev (locked.clients thread) (system.clients thread)
  workers : ∀ accel, WorkerStands locked.memory system.dev accel (locked.workers accel)
  exclusive : Exclusive locked.memory.owner locked.inside
  atRest : ∀ lock, locked.memory.owner lock = none → AtRest locked.memory system.dev lock
  accelerators : ∀ accel,
    locked.memory.dev.accelerators accel = bareAccel (system.dev.accelerators accel)
  tasks : ∀ slot, (∀ thread, (locked.clients thread).filling ≠ some slot) →
    locked.memory.dev.tasks slot = system.dev.tasks slot

/-! ## The nodes of a lock -/

/-- The list nodes that only the holder of a lock stores into. A task that is about to be
queued belongs to the accelerator it goes to. -/
def System.Owns (system : System) : Lock → ListNode → Prop
  | .task, .freeTasks => True
  | .task, .entry slot => slot ∈ system.dev.freeTasks
  | .accel index, .taskQueue accel => accel = index
  | .accel index, .activeTasks accel => accel = index
  | .accel index, .entry slot =>
      slot ∈ (system.dev.accelerators index).taskQueue ∨
        slot ∈ (system.dev.accelerators index).activeTasks ∨
        ∃ thread desc, system.clients thread = .submit desc index (.enqueue slot)
  | .task, .taskQueue _ | .task, .activeTasks _ | .accel _, .freeTasks => False

section Owns

variable {trace : List Event} {system : System}

/-- Where a slot is whose node belongs to an accelerator. -/
theorem Inv.place_of_owned (inv : Inv trace system) {index : AccelIndex} {slot : Slot}
    (owned : system.Owns (.accel index) (.entry slot)) :
    placeOf trace slot = .taskQueue index ∨ placeOf trace slot = .activeTasks index ∨
      ∃ thread desc, placeOf trace slot = .submitting thread ∧
        system.clients thread = .submit desc index (.enqueue slot) := by
  rcases owned with queued | active | ⟨thread, desc, pc⟩
  · exact .inl ((inv.partition.mem (.taskQueue index) slot).mp queued)
  · exact .inr (.inl ((inv.partition.mem (.activeTasks index) slot).mp active))
  · refine .inr (.inr ⟨thread, desc, (inv.partition.mem (.submitting thread) slot).mp ?_, pc⟩)
    simp [content, System.held, pc, ClientPc.claim, SubmitPhase.claim]

/-- No node belongs to two locks. -/
theorem Inv.owns_unique (inv : Inv trace system) {first second : Lock} {node : ListNode}
    (firstOwns : system.Owns first node) (secondOwns : system.Owns second node) :
    first = second := by
  have notBoth {index : AccelIndex} {slot : Slot} (free : slot ∈ system.dev.freeTasks)
      (owned : system.Owns (.accel index) (.entry slot)) : False := by
    have isFree : placeOf trace slot = .freeTasks := (inv.partition.mem .freeTasks slot).mp free
    rcases inv.place_of_owned owned with place | place | ⟨thread, desc, place, -⟩
    · simp [isFree] at place
    · simp [isFree] at place
    · simp [isFree] at place
  cases first with
  | task =>
      cases second with
      | task => rfl
      | accel index =>
          cases node with
          | entry slot => exact (notBoth firstOwns secondOwns).elim
          | freeTasks => exact secondOwns.elim
          | taskQueue accel => exact firstOwns.elim
          | activeTasks accel => exact firstOwns.elim
  | accel index =>
      cases second with
      | task =>
          cases node with
          | entry slot => exact (notBoth secondOwns firstOwns).elim
          | freeTasks => exact firstOwns.elim
          | taskQueue accel => exact secondOwns.elim
          | activeTasks accel => exact secondOwns.elim
      | accel other =>
          cases node with
          | freeTasks => exact firstOwns.elim
          | taskQueue accel =>
              rw [← show accel = index from firstOwns, show accel = other from secondOwns]
          | activeTasks accel =>
              rw [← show accel = index from firstOwns, show accel = other from secondOwns]
          | entry slot =>
              rcases inv.place_of_owned firstOwns with place | place | ⟨thread, desc, place, pc⟩
              · rcases inv.place_of_owned secondOwns with same | same | ⟨_, _, same, -⟩ <;>
                  simp_all
              · rcases inv.place_of_owned secondOwns with same | same | ⟨_, _, same, -⟩ <;>
                  simp_all
              · rcases inv.place_of_owned secondOwns with same | same | ⟨_, _, same, otherPc⟩
                · simp_all
                · simp_all
                · rw [place, Place.submitting.injEq] at same
                  rw [← same, pc] at otherPc
                  cases otherPc
                  rfl

end Owns

/-! ## What a step leaves alone -/

/-- The lists and the counter a lock guards are the same in two devices. -/
def SameGuarded (memory after : Memory) (before dev : Dev) : Lock → Prop
  | .task => dev.freeTasks = before.freeTasks ∧ dev.nextTaskId = before.nextTaskId ∧
      after.dev.nextTaskId = memory.dev.nextTaskId
  | .accel index =>
      (dev.accelerators index).taskQueue = (before.accelerators index).taskQueue ∧
        (dev.accelerators index).activeTasks = (before.accelerators index).activeTasks

/-- A step changes nothing that a lock guards. -/
structure Untouched (system : System) (lock : Lock) (memory after : Memory) (dev : Dev) :
    Prop where
  links : ∀ node, system.Owns lock node → SameAt node memory.links after.links
  guarded : SameGuarded memory after system.dev dev lock

section Untouched

variable {system : System} {memory after : Memory} {dev : Dev} {accel : AccelIndex}

theorem Untouched.poolView_eq (untouched : Untouched system .task memory after dev) :
    poolView after dev = { poolView memory system.dev with links := after.links } := by
  obtain ⟨free, issued, stored⟩ := untouched.guarded
  simp only [poolView, free, issued, stored]

theorem Untouched.queueView_eq (untouched : Untouched system (.accel accel) memory after dev) :
    queueView after dev accel =
      { queueView memory system.dev accel with links := after.links } := by
  obtain ⟨queue, active⟩ := untouched.guarded
  simp only [queueView, queue, active]

theorem PoolView.Covers.owned {node : ListNode}
    (covers : (poolView memory system.dev).Covers node) : system.Owns .task node := by
  rcases List.mem_cons.mp covers with rfl | listed
  · trivial
  · obtain ⟨slot, free, rfl⟩ := exists_of_mem_entries listed
    exact free

/-- The mutex of an accelerator guards the nodes of its queue. -/
theorem owns_of_queued {node : ListNode}
    (queued : node ∈ .taskQueue accel :: entries (system.dev.accelerators accel).taskQueue) :
    system.Owns (.accel accel) node := by
  rcases List.mem_cons.mp queued with rfl | listed
  · rfl
  · obtain ⟨slot, member, rfl⟩ := exists_of_mem_entries listed
    exact .inl member

/-- And those of its active list. -/
theorem owns_of_active {node : ListNode}
    (active : node ∈ .activeTasks accel :: entries (system.dev.accelerators accel).activeTasks) :
    system.Owns (.accel accel) node := by
  rcases List.mem_cons.mp active with rfl | listed
  · rfl
  · obtain ⟨slot, member, rfl⟩ := exists_of_mem_entries listed
    exact .inr (.inl member)

theorem QueueView.Covers.owned {node : ListNode}
    (covers : (queueView memory system.dev accel).Covers accel node) :
    system.Owns (.accel accel) node :=
  covers.elim owns_of_queued owns_of_active

theorem AtRest.of_untouched {lock : Lock} (rest : AtRest memory system.dev lock)
    (untouched : Untouched system lock memory after dev) : AtRest after dev lock := by
  cases lock with
  | task =>
      show (poolView after dev).AtRest
      rw [untouched.poolView_eq]
      exact PoolView.AtRest.of_same rest fun node covers => untouched.links node covers.owned
  | accel index =>
      show (queueView after dev index).AtRest index
      rw [untouched.queueView_eq]
      exact QueueView.AtRest.of_same rest fun node covers => untouched.links node covers.owned

end Untouched

/-- The fields of an accelerator that are set once. -/
structure Fixed (unit after : Accel) : Prop where
  freqHz : after.freqHz = unit.freqHz
  tempCelsius : after.tempCelsius = unit.tempCelsius
  fwVersion : after.fwVersion = unit.fwVersion
  hwVersion : after.hwVersion = unit.hwVersion
  memTotal : after.memTotal = unit.memTotal
  memFree : after.memFree = unit.memFree
  state : after.state = unit.state

theorem Fixed.refl (unit : Accel) : Fixed unit unit := ⟨rfl, rfl, rfl, rfl, rfl, rfl, rfl⟩

theorem Fixed.load_eq {unit after : Accel} (fixed : Fixed unit after) {field : InfoField}
    (constant : field ≠ .loadPercent) (info : AccelInfo) :
    field.load after info = field.load unit info := by
  cases field with
  | loadPercent => exact absurd rfl constant
  | freqHz => simp only [InfoField.load, fixed.freqHz]
  | tempCelsius => simp only [InfoField.load, fixed.tempCelsius]
  | fwVersion => simp only [InfoField.load, fixed.fwVersion]
  | hwVersion => simp only [InfoField.load, fixed.hwVersion]
  | memTotal => simp only [InfoField.load, fixed.memTotal]
  | memFree => simp only [InfoField.load, fixed.memFree]
  | state => simp only [InfoField.load, fixed.state]

/-- Loads of constant fields come to the same. -/
theorem Fixed.foldl_load_eq {unit after : Accel} (fixed : Fixed unit after)
    {fields : List InfoField} (constant : .loadPercent ∉ fields) (info : AccelInfo) :
    fields.foldl (fun image field => field.load after image) info =
      fields.foldl (fun image field => field.load unit image) info := by
  induction fields generalizing info with
  | nil => rfl
  | cons field rest inductionHypothesis =>
      rw [List.mem_cons, not_or] at constant
      rw [List.foldl_cons, List.foldl_cons, fixed.load_eq (Ne.symm constant.1)]
      exact inductionHypothesis constant.2 _

theorem InInfo.of_fixed {unit after : Accel} {accel : AccelIndex} {info : AccelInfo}
    {rest : List InfoField} {view : ClientPc} (shape : InInfo unit accel info rest view)
    (fixed : Fixed unit after) : InInfo after accel info rest view := by
  cases shape with
  | before original loaded split notLoaded partly =>
      exact .before original loaded split notLoaded
        (partly.trans (fixed.foldl_load_eq notLoaded original).symm)
  | after loaded =>
      rw [← fixed.foldl_load_eq loaded]
      exact .after loaded

/-- A change of a task that has nothing to do with its payload. -/
def Orthogonal (change : Task → Task) : Prop :=
  ∀ (desc : TaskDesc) (field : PayloadField) (task : Task),
    change (field.store desc task) = field.store desc (change task)

theorem Orthogonal.id : Orthogonal fun task => task := fun _ _ _ => rfl

theorem Orthogonal.foldl {change : Task → Task} (orthogonal : Orthogonal change) (desc : TaskDesc)
    (fields : List PayloadField) (task : Task) :
    fields.foldl (fun image field => field.store desc image) (change task) =
      change (fields.foldl (fun image field => field.store desc image) task) := by
  induction fields generalizing task with
  | nil => rfl
  | cons field rest inductionHypothesis =>
      rw [List.foldl_cons, List.foldl_cons, ← orthogonal desc field task, inductionHypothesis]

theorem Orthogonal.fillTask {change : Task → Task} (orthogonal : Orthogonal change)
    (desc : TaskDesc) (task : Task) : fillTask desc (change task) = change (fillTask desc task) :=
  orthogonal.foldl desc (.accelType :: .priority :: laterFields) task

/-- A step is confined to what the thread may change: `mine` is the lock the thread holds,
takes or gives back, and `own` the task it is filling. -/
structure Confined (actor : Actor) (mine : Option Lock) (own : Option Slot) (memory after : Memory)
    (system : System) (dev : Dev) : Prop where
  held : ∀ lock, mine = some lock → memory.owner lock = none ∨ memory.owner lock = some actor
  untouched : ∀ lock, mine ≠ some lock → Untouched system lock memory after dev
  owner : ∀ lock, mine ≠ some lock → after.owner lock = memory.owner lock
  apart : ∀ thread slot, actor ≠ .client thread → own = some slot →
    system.held thread ≠ some slot
  tasks : ∀ slot, own ≠ some slot → ∃ change, Orthogonal change ∧
    after.dev.tasks slot = change (memory.dev.tasks slot) ∧
    dev.tasks slot = change (system.dev.tasks slot)
  fixed : ∀ accel, Fixed (memory.dev.accelerators accel) (after.dev.accelerators accel)
  load : ∀ accel, actor ≠ .worker accel →
    (dev.accelerators accel).loadPercent = (system.dev.accelerators accel).loadPercent
  accelerators : ∀ accel, after.dev.accelerators accel = bareAccel (dev.accelerators accel)

section Confined

variable {locked : Locked} {system : System} {actor : Actor} {mine : Option Lock}
  {own : Option Slot} {after : Memory} {dev : Dev}

/-- Another thread is not inside the section of this one. -/
theorem Confined.not_mine {memory : Memory} {inside : Actor → Option Lock}
    (confined : Confined actor mine own memory after system dev)
    (exclusive : Exclusive memory.owner inside) {other : Actor} {lock : Lock}
    (different : actor ≠ other) (isInside : inside other = some lock) : mine ≠ some lock := by
  intro isMine
  rw [exclusive other lock] at isInside
  rcases confined.held lock isMine with free | owned
  · rw [free] at isInside
    cases isInside
  · rw [owned, Option.some.injEq] at isInside
    exact different isInside

/-- A thread that is filling a task holds it. -/
theorem ClientStands.held_of_filling {memory : Memory} {pc : LockedClientPc} {thread : Nat}
    {slot : Slot} (stands : ClientStands memory system.dev pc (system.clients thread))
    (filling : pc.filling = some slot) : system.held thread = some slot := by
  cases pc with
  | fill desc accel target field rest =>
      cases filling
      simp [System.held, stands.1, ClientPc.claim, SubmitPhase.claim]
  | _ => cases filling

/-- Other clients stand where they stood. -/
theorem Confined.client (realizes : Realizes locked system)
    (confined : Confined actor mine own locked.memory after system dev) {thread : Nat}
    (different : actor ≠ .client thread) :
    ClientStands after dev (locked.clients thread) (system.clients thread) := by
  have stands := realizes.clients thread
  have untouched (lock : Lock) (isInside : (locked.clients thread).lock? = some lock) :
      Untouched system lock locked.memory after dev :=
    confined.untouched lock (confined.not_mine realizes.exclusive different isInside)
  have notOwn (slot : Slot) (filling : (locked.clients thread).filling = some slot) :
      own ≠ some slot := fun isOwn =>
    confined.apart thread slot different isOwn (stands.held_of_filling filling)
  generalize locked.clients thread = pc at stands untouched notOwn
  cases pc with
  | outside pc => exact stands
  | crashed => exact stands
  | free desc accel slot ret phase => exact stands
  | alloc desc accel phase =>
      have still := untouched .task rfl
      refine ⟨stands.1, ?_⟩
      rw [still.poolView_eq]
      exact stands.2.of_same fun node covers => still.links node covers.owned
  | fill desc accel slot field rest =>
      obtain ⟨change, orthogonal, inMemory, inDevice⟩ := confined.tasks slot (notOwn slot rfl)
      refine ⟨stands.1, ?_⟩
      rw [inMemory, inDevice, orthogonal.foldl, stands.2, orthogonal.fillTask]
  | enqueue desc accel slot phase =>
      have still := untouched (.accel accel) rfl
      cases phase with
      | add op =>
          refine ⟨stands.1, ?_⟩
          rw [still.queueView_eq]
          exact stands.2.of_same (fun node covers => still.links node covers.owned)
            (still.links _ (.inr (.inr ⟨thread, desc, stands.1⟩)))
      | unlock =>
          refine ⟨stands.1, ?_⟩
          rw [still.queueView_eq]
          exact stands.2.of_same fun node covers => still.links node covers.owned
  | info info accel rest =>
      have still := untouched (.accel accel) rfl
      refine ⟨?_, stands.2.of_fixed (confined.fixed accel)⟩
      rw [still.queueView_eq]
      exact stands.1.of_same fun node covers => still.links node covers.owned

/-- Other workers stand where they stood. -/
theorem Confined.worker (realizes : Realizes locked system)
    (confined : Confined actor mine own locked.memory after system dev) {accel : AccelIndex}
    (different : actor ≠ .worker accel) :
    WorkerStands after dev accel (locked.workers accel) := by
  have stands := realizes.workers accel
  have untouched (lock : Lock) (isInside : (locked.workers accel).lock? accel = some lock) :
      Untouched system lock locked.memory after dev :=
    confined.untouched lock (confined.not_mine realizes.exclusive different isInside)
  generalize locked.workers accel = pc at stands untouched
  cases pc with
  | outside pc => trivial
  | crashed => exact stands
  | raiseLoad slot loaded => exact Eq.trans stands (confined.load accel different).symm
  | lowerLoad slot loaded => exact Eq.trans stands (confined.load accel different).symm
  | dequeue phase =>
      have still := untouched (.accel accel) rfl
      show (queueView after dev accel).InDequeue accel phase
      rw [still.queueView_eq]
      exact QueueView.InDequeue.of_same stands fun node covers => still.links node covers.owned
  | unlink slot phase =>
      have still := untouched (.accel accel) rfl
      show (queueView after dev accel).InUnlink accel slot phase
      rw [still.queueView_eq]
      exact QueueView.InUnlink.of_same stands fun node covers => still.links node covers.owned

/-- What the other locks guard is in order if it was. -/
theorem Confined.atRest (realizes : Realizes locked system)
    (confined : Confined actor mine own locked.memory after system dev)
    (mineAtRest : ∀ lock, mine = some lock → after.owner lock = none → AtRest after dev lock)
    (lock : Lock) (free : after.owner lock = none) : AtRest after dev lock := by
  by_cases isMine : mine = some lock
  · exact mineAtRest lock isMine free
  · rw [confined.owner lock isMine] at free
    exact (realizes.atRest lock free).of_untouched (confined.untouched lock isMine)

/-- Tasks that nobody is filling are what they should be. -/
theorem Confined.task_eq (realizes : Realizes locked system)
    (confined : Confined actor mine own locked.memory after system dev) {slot : Slot}
    (notOwn : own ≠ some slot) (still : ∀ thread, (locked.clients thread).filling ≠ some slot) :
    after.dev.tasks slot = dev.tasks slot := by
  obtain ⟨change, -, inMemory, inDevice⟩ := confined.tasks slot notOwn
  rw [inMemory, inDevice, realizes.tasks slot still]

end Confined

/-! ## One thread moves -/

section Move

variable {locked : Locked} {system : System} {mine : Option Lock} {after : Memory} {dev : Dev}

/-- The system of locks after a step of a client. -/
def Locked.moveClient (locked : Locked) (thread : Nat) (memory : Memory) (pc : LockedClientPc) :
    Locked :=
  { locked with memory := memory, clients := Function.update locked.clients thread pc }

/-- The system of locks after a step of a worker. -/
def Locked.moveWorker (locked : Locked) (accel : AccelIndex) (memory : Memory)
    (pc : LockedWorkerPc) : Locked :=
  { locked with memory := memory, workers := Function.update locked.workers accel pc }

theorem Locked.inside_moveClient (locked : Locked) (thread : Nat) (memory : Memory)
    (pc : LockedClientPc) :
    (locked.moveClient thread memory pc).inside =
      Function.update locked.inside (.client thread) pc.lock? := by
  funext actor
  cases actor with
  | client other =>
      by_cases same : other = thread
      · subst same
        simp [Locked.inside, Locked.moveClient]
      · simp [Locked.inside, Locked.moveClient, same]
  | _ => simp [Locked.inside, Locked.moveClient]

theorem Locked.inside_moveWorker (locked : Locked) (accel : AccelIndex) (memory : Memory)
    (pc : LockedWorkerPc) :
    (locked.moveWorker accel memory pc).inside =
      Function.update locked.inside (.worker accel) (pc.lock? accel) := by
  funext actor
  cases actor with
  | worker other =>
      by_cases same : other = accel
      · subst same
        simp [Locked.inside, Locked.moveWorker]
      · simp [Locked.inside, Locked.moveWorker, same]
  | _ => simp [Locked.inside, Locked.moveWorker]

/-- A client moves, and perhaps its counterpart. -/
theorem Realizes.moveClient (realizes : Realizes locked system) {thread : Nat}
    {pc : LockedClientPc} {view : ClientPc} {own : Option Slot}
    (confined : Confined (.client thread) mine own locked.memory after system dev)
    (filled : (locked.clients thread).filling = none ∨ (locked.clients thread).filling = own)
    (exclusive : Exclusive after.owner
      (Function.update locked.inside (.client thread) pc.lock?))
    (stands : ClientStands after dev pc view)
    (atRest : ∀ lock, mine = some lock → after.owner lock = none → AtRest after dev lock)
    (ownTask : ∀ slot, own = some slot → pc.filling ≠ some slot →
      after.dev.tasks slot = dev.tasks slot) :
    Realizes (locked.moveClient thread after pc)
      { system with dev := dev, clients := Function.update system.clients thread view } where
  ticks := realizes.ticks
  stopper := realizes.stopper
  views := realizes.views
  clients := by
    intro other
    by_cases same : other = thread
    · subst same
      simpa [Locked.moveClient] using stands
    · have different : Actor.client thread ≠ .client other := fun equal =>
        same (Actor.client.inj equal).symm
      simpa [Locked.moveClient, same] using confined.client realizes different
  workers := fun accel => confined.worker realizes (by simp)
  exclusive := by
    rw [Locked.inside_moveClient]
    exact exclusive
  atRest := confined.atRest realizes atRest
  accelerators := confined.accelerators
  tasks := by
    intro slot still
    have notFilling : pc.filling ≠ some slot := by
      simpa [Locked.moveClient] using still thread
    by_cases isOwn : own = some slot
    · exact ownTask slot isOwn notFilling
    · refine confined.task_eq realizes isOwn fun other => ?_
      by_cases same : other = thread
      · subst same
        rcases filled with isNone | isOwned
        · rw [isNone]
          exact fun equal => by cases equal
        · rwa [isOwned]
      · simpa [Locked.moveClient, same] using still other

/-- A client moves and its counterpart does not. -/
theorem Realizes.stayClient (realizes : Realizes locked system) {thread : Nat}
    {pc : LockedClientPc} {own : Option Slot}
    (confined : Confined (.client thread) mine own locked.memory after system system.dev)
    (filled : (locked.clients thread).filling = none ∨ (locked.clients thread).filling = own)
    (exclusive : Exclusive after.owner
      (Function.update locked.inside (.client thread) pc.lock?))
    (stands : ClientStands after system.dev pc (system.clients thread))
    (atRest : ∀ lock, mine = some lock → after.owner lock = none → AtRest after system.dev lock)
    (ownTask : ∀ slot, own = some slot → pc.filling ≠ some slot →
      after.dev.tasks slot = system.dev.tasks slot) :
    Realizes (locked.moveClient thread after pc) system := by
  have moved := realizes.moveClient confined filled exclusive stands atRest ownTask
  rwa [Function.update_eq_self] at moved

/-- A worker moves, and perhaps its counterpart. -/
theorem Realizes.moveWorker (realizes : Realizes locked system) {accel : AccelIndex}
    {pc : LockedWorkerPc}
    (confined : Confined (.worker accel) mine none locked.memory after system dev)
    (exclusive : Exclusive after.owner
      (Function.update locked.inside (.worker accel) (pc.lock? accel)))
    (stands : WorkerStands after dev accel pc)
    (atRest : ∀ lock, mine = some lock → after.owner lock = none → AtRest after dev lock) :
    Realizes (locked.moveWorker accel after pc)
      { system with dev := dev, workers := Function.update system.workers accel pc.view } where
  ticks := realizes.ticks
  stopper := realizes.stopper
  views := by
    intro other
    by_cases same : other = accel
    · subst same
      simp [Locked.moveWorker]
    · simpa [Locked.moveWorker, same] using realizes.views other
  clients := fun thread => confined.client realizes (by simp)
  workers := by
    intro other
    by_cases same : other = accel
    · subst same
      simpa [Locked.moveWorker] using stands
    · have different : Actor.worker accel ≠ .worker other := fun equal =>
        same (Actor.worker.inj equal).symm
      simpa [Locked.moveWorker, same] using confined.worker realizes different
  exclusive := by
    rw [Locked.inside_moveWorker]
    exact exclusive
  atRest := confined.atRest realizes atRest
  accelerators := confined.accelerators
  tasks := fun slot still => confined.task_eq realizes (by simp) still

/-- A worker moves and its counterpart does not. -/
theorem Realizes.stayWorker (realizes : Realizes locked system) {accel : AccelIndex}
    {pc : LockedWorkerPc}
    (confined : Confined (.worker accel) mine none locked.memory after system system.dev)
    (exclusive : Exclusive after.owner
      (Function.update locked.inside (.worker accel) (pc.lock? accel)))
    (stands : WorkerStands after system.dev accel pc)
    (atRest : ∀ lock, mine = some lock → after.owner lock = none → AtRest after system.dev lock)
    (stays : pc.view = (locked.workers accel).view) :
    Realizes (locked.moveWorker accel after pc) system := by
  have moved := realizes.moveWorker confined exclusive stands atRest
  rwa [stays, ← realizes.views accel, Function.update_eq_self] at moved

end Move

end CortexForge.Concurrent
