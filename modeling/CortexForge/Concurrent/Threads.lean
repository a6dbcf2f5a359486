import CortexForge.Concurrent.System
import CortexForge.Concurrent.Lifecycle

/-!
Contract: what one step of one thread can do.

Each thread's step function is split once here. A step of a client or of a
worker either is about no slot and keeps the thread's claim, or is one of the
listed moves; the moves name the program counters before and after. Every
invariant of the system is derived from these lists.

Owns: the claims of threads, the moves of clients and workers, and the lookup
bookkeeping of QUERY and CANCEL.
-/

namespace CortexForge.Concurrent

/-! ## Claims -/

/-- A slot a client thread holds between `task_alloc` and `list_add_tail`, with
the point it has brought it to and the descriptor it serves. -/
structure Claim where
  slot : Slot
  point : Point
  desc : TaskDesc

def SubmitPhase.claim (thread : Nat) (desc : TaskDesc) : SubmitPhase → Option Claim
  | .fill slot => some ⟨slot, .allocated thread, desc⟩
  | .check slot | .writePending slot | .rollback slot _ => some ⟨slot, .filled thread, desc⟩
  | .readJiffies slot | .writeSubmitJiffies slot _ => some ⟨slot, .published thread, desc⟩
  | .enqueue slot => some ⟨slot, .stamped thread, desc⟩
  | .alloc | .wakeUp _ | .readId _ | .copyOut _ => none

def ClientPc.claim (thread : Nat) : ClientPc → Option Claim
  | .submit desc _ phase => phase.claim thread desc
  | _ => none

theorem ClientPc.claim_place {thread : Nat} {pc : ClientPc} {claim : Claim}
    (claimed : pc.claim thread = some claim) : claim.point.place = .submitting thread := by
  cases pc with
  | submit desc accel phase =>
      cases phase <;> simp only [ClientPc.claim, SubmitPhase.claim, Option.some.injEq,
        reduceCtorEq] at claimed <;> subst claimed <;> rfl
  | _ => cases claimed

/-- The point of the task a worker is executing. -/
def WorkPhase.point (accel : AccelIndex) : WorkPhase → Point
  | .writeRunning => .claimed accel
  | .raiseLoad | .testTimeout | .readClock _ | .testClock _ _ | .testState _ _ | .sleep _ _
  | .testStop _ _ | .sleepShort | .readJiffies | .writeCompleteJiffies _ => .running accel
  | .writeComplete => .timed accel
  | .writeError => .completed accel
  | .lowerLoad | .completeAll => .cleared accel
  | .unlink => .signalled accel

theorem WorkPhase.point_place (accel : AccelIndex) (phase : WorkPhase) :
    (phase.point accel).place = .activeTasks accel := by
  cases phase <;> rfl

def WorkerPc.claim (accel : AccelIndex) : WorkerPc → Option (Slot × Point)
  | .exec slot phase => some (slot, phase.point accel)
  | _ => none

theorem WorkerPc.claim_place {accel : AccelIndex} {pc : WorkerPc} {slot : Slot} {point : Point}
    (claimed : pc.claim accel = some (slot, point)) : point.place = .activeTasks accel := by
  cases pc with
  | exec held phase =>
      simp only [WorkerPc.claim, Option.some.injEq, Prod.mk.injEq] at claimed
      rw [← claimed.2]
      exact phase.point_place accel
  | _ => cases claimed

/-! ## Moves of a client -/

/-- What a step of a client thread can do. -/
inductive ClientMove (dev : Dev) (thread : Nat) : ClientPc → Action → ClientPc → Prop
  | quiet {pc next : ClientPc} {action : Action} (noSlot : action.slot? = none)
      (same : next.claim thread = pc.claim thread) : ClientMove dev thread pc action next
  | alloc (desc : TaskDesc) (accel : AccelIndex) (slot : Slot) (rest : List Slot)
      (free : dev.freeTasks = slot :: rest) :
      ClientMove dev thread (.submit desc accel .alloc)
        (.alloc slot (dev.nextTaskId + 1) desc) (.submit desc accel (.fill slot))
  | fill (desc : TaskDesc) (accel : AccelIndex) (slot : Slot) :
      ClientMove dev thread (.submit desc accel (.fill slot)) (.store slot (.fill desc))
        (.submit desc accel (.check slot))
  | publish (desc : TaskDesc) (accel : AccelIndex) (slot : Slot) :
      ClientMove dev thread (.submit desc accel (.writePending slot))
        (.store slot (.state .pending)) (.submit desc accel (.readJiffies slot))
  | stamp (desc : TaskDesc) (accel : AccelIndex) (slot : Slot) (now : UInt64) :
      ClientMove dev thread (.submit desc accel (.writeSubmitJiffies slot now))
        (.store slot (.submitJiffies now)) (.submit desc accel (.enqueue slot))
  | enqueue (desc : TaskDesc) (accel : AccelIndex) (slot : Slot) :
      ClientMove dev thread (.submit desc accel (.enqueue slot)) (.enqueue accel slot)
        (.submit desc accel (.wakeUp slot))
  | rollback (desc : TaskDesc) (accel : AccelIndex) (slot : Slot) (ret : Int) :
      ClientMove dev thread (.submit desc accel (.rollback slot ret)) (.free slot)
        (.returned (.submit ret desc))
  | cancelState (taskId : UInt32) (slot : Slot) :
      ClientMove dev thread (.cancel taskId (.writeState slot))
        (.store slot (.state .cancelled)) (.cancel taskId (.writeError slot))
  | cancelError (taskId : UInt32) (slot : Slot) :
      ClientMove dev thread (.cancel taskId (.writeError slot))
        (.store slot (.errorCode ecanceledCode)) (.cancel taskId (.completeAll slot))
  | cancelDone (taskId : UInt32) (slot : Slot) :
      ClientMove dev thread (.cancel taskId (.completeAll slot)) (.store slot .done)
        (.returned (.cancel taskId 0))

/-- Entering a call claims nothing. -/
theorem enterCall_claim (thread : Nat) (copied : Bool) (call : Call) :
    (enterCall copied call).claim thread = none := by
  have enters := entered copied call
  generalize enterCall copied call = pc at enters ⊢
  cases enters <;> rfl

theorem queryStep_claim (kernel : Kernel) (dev : Dev) (choice : Bool) (taskId : UInt32)
    (phase : QueryPhase) (thread : Nat) :
    (queryStep kernel dev choice taskId phase).claim thread = none := by
  rcases queryStep_next kernel dev choice taskId phase with ⟨after, next⟩ | ⟨ret, answer, next⟩
  · rw [next]
    rfl
  · rw [next]
    rfl

private theorem submitStep_move (dev : Dev) (now : UInt64) (copied : Bool) (desc : TaskDesc)
    (accel : AccelIndex) (phase : SubmitPhase) (thread : Nat) :
    ClientMove dev thread (.submit desc accel phase)
      (submitStep dev now copied desc accel phase).1
      (submitStep dev now copied desc accel phase).2 := by
  cases phase with
  | alloc =>
      cases free : dev.freeTasks with
      | nil =>
          simp only [submitStep, free]
          exact .quiet rfl rfl
      | cons slot rest =>
          simp only [submitStep, free]
          exact .alloc desc accel slot rest free
  | fill slot => exact .fill desc accel slot
  | check slot =>
      simp only [submitStep]
      split
      · exact .quiet rfl rfl
      · exact .quiet rfl rfl
  | writePending slot => exact .publish desc accel slot
  | readJiffies slot => exact .quiet rfl rfl
  | writeSubmitJiffies slot stamp => exact .stamp desc accel slot stamp
  | enqueue slot => exact .enqueue desc accel slot
  | wakeUp slot => exact .quiet rfl rfl
  | readId slot => exact .quiet rfl rfl
  | copyOut taskId =>
      simp only [submitStep]
      split
      · exact .quiet rfl rfl
      · exact .quiet rfl rfl
  | rollback slot ret => exact .rollback desc accel slot ret

private theorem cancelStep_move (dev : Dev) (taskId : UInt32) (phase : CancelPhase)
    (thread : Nat) :
    ClientMove dev thread (.cancel taskId phase) (cancelStep dev taskId phase).1
      (cancelStep dev taskId phase).2 := by
  cases phase with
  | scan index =>
      simp only [cancelStep]
      split
      · split
        · exact .quiet rfl rfl
        · exact .quiet rfl rfl
      · exact .quiet rfl rfl
  | checkState slot =>
      simp only [cancelStep]
      split
      · exact .quiet rfl rfl
      · exact .quiet rfl rfl
  | writeState slot => exact .cancelState taskId slot
  | writeError slot => exact .cancelError taskId slot
  | completeAll slot => exact .cancelDone taskId slot

/-- The inversion of a client's step. -/
theorem clientMove_of_step {kernel : Kernel} {dev : Dev} {now : UInt64} {input : ClientInput}
    {pc next : ClientPc} {action : Action} (thread : Nat)
    (taken : clientStep kernel dev now input pc = some (action, next)) :
    ClientMove dev thread pc action next := by
  cases clientTaken_of_step taken with
  | enter call copied pc resting =>
      refine .quiet rfl ((enterCall_claim thread copied call).trans ?_)
      rcases resting with rfl | ⟨reply, rfl⟩
      · rfl
      · rfl
  | submit choice desc accel phase => exact submitStep_move dev now choice desc accel phase thread
  | query choice taskId phase =>
      exact .quiet rfl (queryStep_claim kernel dev choice taskId phase thread)
  | cancel choice taskId phase => exact cancelStep_move dev taskId phase thread
  | accelInfo choice info accel => exact .quiet rfl rfl
  | copyInfo choice info => exact .quiet rfl rfl

/-! ## Moves of a worker -/

/-- What a step of a worker can do. -/
inductive WorkerMove (dev : Dev) (accel : AccelIndex) : WorkerPc → Action → WorkerPc → Prop
  | quiet {pc next : WorkerPc} {action : Action} (noSlot : action.slot? = none)
      (same : next.claim accel = pc.claim accel) : WorkerMove dev accel pc action next
  | dequeue (slot : Slot) (rest : List Slot)
      (head : (dev.accelerators accel).taskQueue = slot :: rest) :
      WorkerMove dev accel .dequeue (.dequeue accel slot) (.exec slot .writeRunning)
  | run (slot : Slot) :
      WorkerMove dev accel (.exec slot .writeRunning) (.store slot (.state .running))
        (.exec slot .raiseLoad)
  | time (slot : Slot) (now : UInt64) :
      WorkerMove dev accel (.exec slot (.writeCompleteJiffies now))
        (.store slot (.completeJiffies now)) (.exec slot .writeComplete)
  | complete (slot : Slot) :
      WorkerMove dev accel (.exec slot .writeComplete) (.store slot (.state .complete))
        (.exec slot .writeError)
  | clear (slot : Slot) :
      WorkerMove dev accel (.exec slot .writeError) (.store slot (.errorCode 0))
        (.exec slot .lowerLoad)
  | signal (slot : Slot) :
      WorkerMove dev accel (.exec slot .completeAll) (.store slot .done) (.exec slot .unlink)
  | unlink (slot : Slot) :
      WorkerMove dev accel (.exec slot .unlink) (.unlink accel slot) .loop

private theorem execStep_move (kernel : Kernel) (dev : Dev) (now : UInt64)
    (accel : AccelIndex) (slot : Slot) (phase : WorkPhase) :
    WorkerMove dev accel (.exec slot phase) (execStep kernel dev now accel slot phase).1
      (execStep kernel dev now accel slot phase).2 := by
  cases phase with
  | writeRunning => exact .run slot
  | writeCompleteJiffies stamp => exact .time slot stamp
  | writeComplete => exact .complete slot
  | writeError => exact .clear slot
  | completeAll => exact .signal slot
  | unlink => exact .unlink slot
  | testTimeout =>
      simp only [execStep]
      split
      · exact .quiet rfl rfl
      · exact .quiet rfl rfl
  | testClock timeout start =>
      simp only [execStep]
      split
      · exact .quiet rfl rfl
      · exact .quiet rfl rfl
  | testState timeout start =>
      simp only [execStep]
      split
      · exact .quiet rfl rfl
      · exact .quiet rfl rfl
  | testStop timeout start =>
      simp only [execStep]
      split
      · exact .quiet rfl rfl
      · exact .quiet rfl rfl
  | _ => exact .quiet rfl rfl

/-- The inversion of a worker's step. -/
theorem workerMove_of_step {kernel : Kernel} {dev : Dev} {now : UInt64} {expired : Bool}
    {accel : AccelIndex} {pc next : WorkerPc} {action : Action}
    (taken : workerStep kernel dev now expired accel pc = some (action, next)) :
    WorkerMove dev accel pc action next := by
  cases workerTaken_of_step taken with
  | dequeue slot rest head => exact .dequeue slot rest head
  | exec slot phase => exact execStep_move kernel dev now accel slot phase
  | _ => exact .quiet rfl rfl

/-! ## Moves of the stopping thread -/

/-- What a step of the stopping thread can do. -/
inductive StopperMove (dev : Dev) (workers : AccelIndex → WorkerPc) :
    StopperPc → Action → StopperPc → Prop
  | enter : StopperMove dev workers .idle .tau (.test 0)
  | skip (accel : AccelIndex) (stopped : (dev.accelerators accel).workerThread = .null) :
      StopperMove dev workers (.test accel.val) .tau (.test (accel.val + 1))
  | select (accel : AccelIndex) (started : (dev.accelerators accel).workerThread ≠ .null) :
      StopperMove dev workers (.test accel.val) .tau (.clearRunning accel)
  | finish (index : Nat) (past : numAccelerators ≤ index) :
      StopperMove dev workers (.test index) .tau .returned
  | clearRunning (accel : AccelIndex) :
      StopperMove dev workers (.clearRunning accel) (.touch accel .clearRunning) (.wakeUp accel)
  | wakeUp (accel : AccelIndex) :
      StopperMove dev workers (.wakeUp accel) (.touch accel .wakeUp) (.kthreadStop accel)
  | request (accel : AccelIndex) :
      StopperMove dev workers (.kthreadStop accel) (.touch accel .requestStop) (.join accel)
  | join (accel : AccelIndex) (exited : workers accel = .exited) :
      StopperMove dev workers (.join accel) .tau (.clearThread accel)
  | clearThread (accel : AccelIndex) :
      StopperMove dev workers (.clearThread accel) (.touch accel .clearThread)
        (.test (accel.val + 1))

/-- The inversion of a step of the stopping thread. -/
theorem stopperMove_of_step {dev : Dev} {workers : AccelIndex → WorkerPc} {pc next : StopperPc}
    {action : Action} (taken : stopperStep dev workers pc = some (action, next)) :
    StopperMove dev workers pc action next := by
  cases pc with
  | idle =>
      cases taken
      exact .enter
  | test index =>
      simp only [stopperStep] at taken
      split at taken
      next inRange =>
        split at taken
        next stopped =>
          cases taken
          exact .skip ⟨index, inRange⟩ stopped
        next started =>
          cases taken
          exact .select ⟨index, inRange⟩ started
      next past =>
        cases taken
        exact .finish index (Nat.not_lt.mp past)
  | clearRunning accel =>
      cases taken
      exact .clearRunning accel
  | wakeUp accel =>
      cases taken
      exact .wakeUp accel
  | kthreadStop accel =>
      cases taken
      exact .request accel
  | join accel =>
      simp only [stopperStep] at taken
      split at taken
      next exited =>
        cases taken
        exact .join accel exited
      next => cases taken
  | clearThread accel =>
      cases taken
      exact .clearThread accel
  | returned => cases taken

/-- The stopping thread touches accelerators only. -/
theorem stopperStep_slot {dev : Dev} {workers : AccelIndex → WorkerPc} {pc next : StopperPc}
    {action : Action} (taken : stopperStep dev workers pc = some (action, next)) :
    action.slot? = none := by
  cases stopperMove_of_step taken <;> rfl

/-! ## Updates of an accelerator -/

/-- The threads that make each update of an accelerator. -/
def Touch.MadeBy (accel : AccelIndex) : Touch → Actor → Prop
  | .raiseLoad, actor | .lowerLoad, actor | .prepareToWait, actor | .finishWait, actor =>
      actor = .worker accel
  | .wakeUp, actor => (∃ thread, actor = .client thread) ∨ actor = .stopper
  | .clearRunning, actor | .requestStop, actor | .clearThread, actor => actor = .stopper

/-- A client updates an accelerator only to wake its worker. -/
private theorem clientStep_touch {kernel : Kernel} {dev : Dev} {now : UInt64}
    {input : ClientInput} {pc next : ClientPc} {accel : AccelIndex} {update : Touch}
    (taken : clientStep kernel dev now input pc = some (.touch accel update, next)) :
    update = .wakeUp := by
  generalize touched : Action.touch accel update = action at taken
  cases clientTaken_of_step taken with
  | submit choice desc target phase =>
      cases phase <;> simp only [submitStep] at touched <;> (try split at touched) <;>
        cases touched
      rfl
  | cancel choice taskId phase =>
      cases phase <;> simp only [cancelStep] at touched <;> (try split at touched) <;>
        (try split at touched) <;> cases touched
  | _ => cases touched

/-- A worker updates its own accelerator only: its load and its wait queue. -/
private theorem workerStep_touch {kernel : Kernel} {dev : Dev} {now : UInt64} {expired : Bool}
    {accel target : AccelIndex} {update : Touch} {pc next : WorkerPc}
    (taken : workerStep kernel dev now expired accel pc = some (.touch target update, next)) :
    update.MadeBy target (.worker accel) := by
  generalize touched : Action.touch target update = action at taken
  cases workerTaken_of_step taken with
  | register =>
      cases touched
      rfl
  | finishWait =>
      cases touched
      rfl
  | exec slot phase =>
      cases phase <;> simp only [execStep] at touched <;> (try split at touched) <;>
        cases touched <;> rfl
  | _ => cases touched

theorem Stepped.madeBy {kernel : Kernel} {system next : System} {event : Event}
    {accel : AccelIndex} {update : Touch} (stepped : Stepped kernel system event next)
    (touches : event.action = .touch accel update) : update.MadeBy accel event.actor := by
  cases stepped with
  | client thread input action pc taken =>
      change action = .touch accel update at touches
      rw [touches] at taken
      rw [clientStep_touch taken]
      exact Or.inl ⟨thread, rfl⟩
  | worker index expired action pc taken =>
      change action = .touch accel update at touches
      rw [touches] at taken
      exact workerStep_touch taken
  | stopper action pc taken =>
      change action = .touch accel update at touches
      rw [touches] at taken
      generalize system.stopper = before at taken
      cases stopperMove_of_step taken with
      | wakeUp _ => exact Or.inr rfl
      | _ => rfl
  | tick => cases touches

/-! ## Submissions -/

/-- A submission in flight has passed validation and is not being rolled
back. -/
def ClientPc.Sound : ClientPc → Prop
  | .submit _ _ (.rollback _ _) => False
  | .submit desc accel _ => validateDesc desc = .ok accel
  | _ => True

theorem enterCall_sound (copied : Bool) (call : Call) : (enterCall copied call).Sound := by
  have enters := entered copied call
  generalize enterCall copied call = pc at enters ⊢
  cases enters with
  | submit desc accel accepted => exact accepted
  | _ => trivial

/-- The check of `task_submit` passes on a slot that holds the validated
`accel_type`, so the handler never rolls back. -/
private theorem submitStep_sound {dev : Dev} {desc : TaskDesc} {accel : AccelIndex}
    {phase : SubmitPhase} (now : UInt64) (copied : Bool)
    (sound : (ClientPc.submit desc accel phase).Sound)
    (checked : ∀ slot, phase = .check slot → (dev.tasks slot).accelType = desc.accelType) :
    (submitStep dev now copied desc accel phase).2.Sound := by
  cases phase with
  | rollback slot ret => exact sound.elim
  | alloc =>
      simp only [submitStep]
      split
      · trivial
      · exact sound
  | check slot =>
      have inRange : ¬ numAccelerators ≤ (dev.tasks slot).accelType.toNat := by
        rw [checked slot rfl, validateDesc_ok sound]
        exact Nat.not_le.mpr accel.isLt
      simp only [submitStep, if_neg inRange]
      exact sound
  | copyOut taskId =>
      simp only [submitStep]
      split <;> trivial
  | _ => exact sound

theorem ClientPc.Sound.step {kernel : Kernel} {dev : Dev} {now : UInt64} {input : ClientInput}
    {pc next : ClientPc} {action : Action} (sound : pc.Sound)
    (checked : ∀ desc accel slot, pc = .submit desc accel (.check slot) →
      (dev.tasks slot).accelType = desc.accelType)
    (taken : clientStep kernel dev now input pc = some (action, next)) : next.Sound := by
  cases clientTaken_of_step taken with
  | enter call copied pc resting => exact enterCall_sound copied call
  | submit choice desc accel phase =>
      exact submitStep_sound now choice sound
        (fun slot isCheck => checked desc accel slot (by rw [isCheck]))
  | query choice taskId phase =>
      rcases queryStep_next kernel dev choice taskId phase with ⟨after, next⟩ | ⟨ret, answer, next⟩
      · rw [next]
        trivial
      · rw [next]
        trivial
  | cancel choice taskId phase =>
      rcases cancelStep_next dev taskId phase with ⟨after, next⟩ | ⟨ret, next⟩
      · rw [next]
        trivial
      · rw [next]
        trivial
  | accelInfo choice info accel => trivial
  | copyInfo choice info => trivial

/-! ## Lookups -/

/-- How far a QUERY or CANCEL has come in finding its task: about to load the id
of a slot, about to load the state of a slot whose id matched, or done. -/
inductive Lookup where
  | scan (index : Nat)
  | check (slot : Slot)
  | found (slot : Slot)
deriving DecidableEq

def QueryPhase.lookup : QueryPhase → Lookup
  | .scan index => .scan index
  | .checkState slot => .check slot
  | .readId slot | .readState slot _ | .readJiffies slot _ | .readSubmit slot _ _
  | .readComplete slot _ _ | .readError slot _ | .copyOut slot _ => .found slot

def CancelPhase.lookup : CancelPhase → Lookup
  | .scan index => .scan index
  | .checkState slot => .check slot
  | .writeState slot | .writeError slot | .completeAll slot => .found slot

/-- The id a thread is looking up, and how far it has come. -/
def ClientPc.lookup : ClientPc → Option (UInt32 × Lookup)
  | .query taskId phase => some (taskId, phase.lookup)
  | .cancel taskId phase => some (taskId, phase.lookup)
  | _ => none

/-- A thread outside of every call looks up nothing. -/
theorem ClientPc.lookup_of_resting {pc : ClientPc}
    (resting : pc = .idle ∨ ∃ reply, pc = .returned reply) : pc.lookup = none := by
  rcases resting with rfl | ⟨reply, rfl⟩
  · rfl
  · rfl

/-- One step of a lookup. -/
inductive LookupStep (dev : Dev) (taskId : UInt32) : Lookup → Lookup → Prop
  | hit (slot : Slot) (sameId : (dev.tasks slot).id = taskId) :
      LookupStep dev taskId (.scan slot.val) (.check slot)
  | skip (slot : Slot) (otherId : (dev.tasks slot).id ≠ taskId) :
      LookupStep dev taskId (.scan slot.val) (.scan (slot.val + 1))
  | accept (slot : Slot) (notFree : (dev.tasks slot).state ≠ .free) :
      LookupStep dev taskId (.check slot) (.found slot)
  | pass (slot : Slot) (free : (dev.tasks slot).state = .free) :
      LookupStep dev taskId (.check slot) (.scan (slot.val + 1))
  | keep (slot : Slot) : LookupStep dev taskId (.found slot) (.found slot)

theorem queryStep_lookup {kernel : Kernel} {dev : Dev} {choice : Bool} {taskId : UInt32}
    {phase : QueryPhase} {sought : UInt32} {after : Lookup}
    (looking : (queryStep kernel dev choice taskId phase).lookup = some (sought, after)) :
    sought = taskId ∧ LookupStep dev taskId phase.lookup after := by
  cases phase with
  | scan index =>
      simp only [queryStep] at looking
      split at looking
      next inRange =>
        split at looking
        next sameId =>
          simp only [ClientPc.lookup, QueryPhase.lookup, Option.some.injEq,
            Prod.mk.injEq] at looking
          obtain ⟨rfl, rfl⟩ := looking
          exact ⟨rfl, .hit ⟨index, inRange⟩ sameId⟩
        next otherId =>
          simp only [ClientPc.lookup, QueryPhase.lookup, Option.some.injEq,
            Prod.mk.injEq] at looking
          obtain ⟨rfl, rfl⟩ := looking
          exact ⟨rfl, .skip ⟨index, inRange⟩ otherId⟩
      next => cases looking
  | checkState slot =>
      simp only [queryStep] at looking
      split at looking
      next notFree =>
        cases looking
        exact ⟨rfl, .accept slot notFree⟩
      next free =>
        cases looking
        exact ⟨rfl, .pass slot (not_not.mp free)⟩
  | readJiffies slot status =>
      simp only [queryStep] at looking
      split at looking
      · cases looking
        exact ⟨rfl, .keep slot⟩
      · cases looking
        exact ⟨rfl, .keep slot⟩
  | copyOut slot status =>
      simp only [queryStep] at looking
      split at looking
      · cases looking
      · cases looking
  | _ =>
      cases looking
      exact ⟨rfl, .keep _⟩

theorem cancelStep_lookup {dev : Dev} {taskId : UInt32} {phase : CancelPhase}
    {sought : UInt32} {after : Lookup}
    (looking : (cancelStep dev taskId phase).2.lookup = some (sought, after)) :
    sought = taskId ∧ LookupStep dev taskId phase.lookup after := by
  cases phase with
  | scan index =>
      simp only [cancelStep] at looking
      split at looking
      next inRange =>
        split at looking
        next sameId =>
          simp only [ClientPc.lookup, CancelPhase.lookup, Option.some.injEq,
            Prod.mk.injEq] at looking
          obtain ⟨rfl, rfl⟩ := looking
          exact ⟨rfl, .hit ⟨index, inRange⟩ sameId⟩
        next otherId =>
          simp only [ClientPc.lookup, CancelPhase.lookup, Option.some.injEq,
            Prod.mk.injEq] at looking
          obtain ⟨rfl, rfl⟩ := looking
          exact ⟨rfl, .skip ⟨index, inRange⟩ otherId⟩
      next => cases looking
  | checkState slot =>
      simp only [cancelStep] at looking
      split at looking
      next notFree =>
        cases looking
        exact ⟨rfl, .accept slot notFree⟩
      next free =>
        cases looking
        exact ⟨rfl, .pass slot (not_not.mp free)⟩
  | completeAll slot => cases looking
  | _ =>
      cases looking
      exact ⟨rfl, .keep _⟩

/-- The id a call looks up. -/
def Call.sought : Call → Option UInt32
  | .query taskId | .cancel taskId => some taskId
  | .submit _ | .accelInfo _ => none

theorem enterCall_lookup {copied : Bool} {call : Call} {taskId : UInt32} {after : Lookup}
    (looking : (enterCall copied call).lookup = some (taskId, after)) :
    call.sought = some taskId ∧ after = .scan 0 := by
  have enters := entered copied call
  generalize enterCall copied call = pc at enters looking
  cases enters with
  | query sought =>
      cases looking
      exact ⟨rfl, rfl⟩
  | cancel sought =>
      cases looking
      exact ⟨rfl, rfl⟩
  | _ => cases looking

/-- A lookup in flight after a step has just begun or has taken one step. -/
theorem lookup_of_step {kernel : Kernel} {dev : Dev} {now : UInt64} {input : ClientInput}
    {pc next : ClientPc} {action : Action} {taskId : UInt32} {after : Lookup}
    (taken : clientStep kernel dev now input pc = some (action, next))
    (looking : next.lookup = some (taskId, after)) :
    (∃ call copied, input = .call call copied ∧ call.sought = some taskId ∧ after = .scan 0) ∨
      ∃ before, pc.lookup = some (taskId, before) ∧ LookupStep dev taskId before after := by
  cases clientTaken_of_step taken with
  | enter call copied pc resting =>
      exact Or.inl ⟨call, copied, rfl, enterCall_lookup looking⟩
  | submit choice desc accel phase =>
      rcases submitStep_next dev now choice desc accel phase with ⟨later, next⟩ | ⟨ret, reply, next⟩
      · rw [next] at looking
        cases looking
      · rw [next] at looking
        cases looking
  | query choice sought phase =>
      obtain ⟨rfl, moved⟩ := queryStep_lookup looking
      exact Or.inr ⟨_, rfl, moved⟩
  | cancel choice sought phase =>
      obtain ⟨rfl, moved⟩ := cancelStep_lookup looking
      exact Or.inr ⟨_, rfl, moved⟩
  | accelInfo choice info accel => cases looking
  | copyInfo choice info => cases looking

end CortexForge.Concurrent
