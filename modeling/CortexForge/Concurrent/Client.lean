import CortexForge.Concurrent.Action

/-!
Contract: a client thread inside `cortex_forge_ioctl`, step by step.

Sources: `src/chardev.c` and `src/task_manager.c`. A thread's program counter
names the next atomic step and carries the handler's locals. The four commands
that touch the device are modelled; SET_POWER, GET_VERSION, GET_PROFILE and
SET_ACCEL touch nothing that another thread can see.

Owns: the program counters and the step of one client thread, and where a step leaves it.
-/

namespace CortexForge.Concurrent

/-- A call and the structure that `copy_from_user` delivers to it. -/
inductive Call where
  | submit (desc : TaskDesc)
  | query (taskId : UInt32)
  | cancel (taskId : UInt32)
  | accelInfo (info : AccelInfo)

/-- The SUBMIT handler from its validated descriptor on. -/
inductive SubmitPhase where
  | alloc
  | fill (slot : Slot)
  | check (slot : Slot)
  | writePending (slot : Slot)
  | readJiffies (slot : Slot)
  | writeSubmitJiffies (slot : Slot) (stamp : UInt64)
  | enqueue (slot : Slot)
  | wakeUp (slot : Slot)
  | readId (slot : Slot)
  | copyOut (taskId : UInt32)
  | rollback (slot : Slot) (ret : Int)
deriving DecidableEq

/-- `task_query`. The scan loads the id and the state of a slot in two steps;
the two timestamps are loaded in an order that C leaves open. -/
inductive QueryPhase where
  | scan (index : Nat)
  | checkState (slot : Slot)
  | readId (slot : Slot)
  | readState (slot : Slot) (status : TaskStatus)
  | readJiffies (slot : Slot) (status : TaskStatus)
  | readSubmit (slot : Slot) (status : TaskStatus) (complete : UInt64)
  | readComplete (slot : Slot) (status : TaskStatus) (submit : UInt64)
  | readError (slot : Slot) (status : TaskStatus)
  | copyOut (slot : Slot) (status : TaskStatus)
deriving DecidableEq

/-- `task_cancel`. -/
inductive CancelPhase where
  | scan (index : Nat)
  | checkState (slot : Slot)
  | writeState (slot : Slot)
  | writeError (slot : Slot)
  | completeAll (slot : Slot)
deriving DecidableEq

/-- What a call came back with. A query also names the slot it read. -/
inductive Reply where
  | submit (ret : Int) (desc : TaskDesc)
  | query (taskId : UInt32) (ret : Int) (answer : Option (Slot × TaskStatus))
  | cancel (taskId : UInt32) (ret : Int)
  | accelInfo (ret : Int) (info : AccelInfo)
deriving DecidableEq

inductive ClientPc where
  | idle
  | submit (desc : TaskDesc) (accel : AccelIndex) (phase : SubmitPhase)
  | query (taskId : UInt32) (phase : QueryPhase)
  | cancel (taskId : UInt32) (phase : CancelPhase)
  | accelInfo (info : AccelInfo) (accel : AccelIndex)
  | copyInfo (info : AccelInfo)
  | returned (reply : Reply)
deriving DecidableEq

/-- What the environment decides in a client's step: which call is made and
whether its `copy_from_user` succeeds; and, inside a call, whether
`copy_to_user` succeeds or which timestamp is loaded first. -/
inductive ClientInput where
  | call (call : Call) (copied : Bool)
  | advance (choice : Bool)

/-- Entry into the handler up to the first access to the device. -/
def enterCall (copied : Bool) : Call → ClientPc
  | .submit desc =>
      if copied then
        match validateDesc desc with
        | .ok accel => .submit desc accel .alloc
        | .error errno => .returned (.submit errno.ret desc)
      else .returned (.submit Errno.efault.ret desc)
  | .query taskId =>
      if copied then .query taskId (.scan 0)
      else .returned (.query taskId Errno.efault.ret none)
  | .cancel taskId =>
      if copied then .cancel taskId (.scan 0)
      else .returned (.cancel taskId Errno.efault.ret)
  | .accelInfo info =>
      if copied then
        if inRange : info.accelType.toNat < numAccelerators then
          .accelInfo info ⟨info.accelType.toNat, inRange⟩
        else .returned (.accelInfo Errno.einval.ret info)
      else .returned (.accelInfo Errno.efault.ret info)

def submitStep (dev : Dev) (now : UInt64) (copied : Bool) (desc : TaskDesc)
    (accel : AccelIndex) : SubmitPhase → Action × ClientPc
  | .alloc =>
      match dev.freeTasks with
      | [] => (.tau, .returned (.submit Errno.enomem.ret desc))
      | slot :: _ =>
          (.alloc slot (dev.nextTaskId + 1) desc, .submit desc accel (.fill slot))
  | .fill slot => (.store slot (.fill desc), .submit desc accel (.check slot))
  | .check slot =>
      if numAccelerators ≤ (dev.tasks slot).accelType.toNat then
        (.tau, .submit desc accel (.rollback slot Errno.einval.ret))
      else (.tau, .submit desc accel (.writePending slot))
  | .writePending slot =>
      (.store slot (.state .pending), .submit desc accel (.readJiffies slot))
  | .readJiffies slot => (.tau, .submit desc accel (.writeSubmitJiffies slot now))
  | .writeSubmitJiffies slot stamp =>
      (.store slot (.submitJiffies stamp), .submit desc accel (.enqueue slot))
  | .enqueue slot => (.enqueue accel slot, .submit desc accel (.wakeUp slot))
  | .wakeUp slot => (.touch accel .wakeUp, .submit desc accel (.readId slot))
  | .readId slot => (.tau, .submit desc accel (.copyOut (dev.tasks slot).id))
  | .copyOut taskId =>
      if copied then (.tau, .returned (.submit 0 { desc with taskId := taskId }))
      else (.tau, .returned (.submit Errno.efault.ret desc))
  | .rollback slot ret => (.free slot, .returned (.submit ret desc))

/-- The cleared status of `task_query` with its first store. -/
def startStatus (taskId : UInt32) : TaskStatus where
  taskId := taskId
  status := 0
  execUsec := 0
  errorCode := 0
  reserved := fun _ => 0

/-- The `exec_usec` expression on loaded timestamps. -/
def usecBetween (kernel : Kernel) (complete submit : UInt64) : UInt64 :=
  (complete - submit) * 1000000 / kernel.hz

def queryStep (kernel : Kernel) (dev : Dev) (choice : Bool) (taskId : UInt32) :
    QueryPhase → ClientPc
  | .scan index =>
      if inRange : index < maxTasks then
        if (dev.tasks ⟨index, inRange⟩).id = taskId then
          .query taskId (.checkState ⟨index, inRange⟩)
        else .query taskId (.scan (index + 1))
      else .returned (.query taskId Errno.enoent.ret none)
  | .checkState slot =>
      if (dev.tasks slot).state ≠ .free then .query taskId (.readId slot)
      else .query taskId (.scan (slot.val + 1))
  | .readId slot => .query taskId (.readState slot (startStatus (dev.tasks slot).id))
  | .readState slot status =>
      .query taskId (.readJiffies slot { status with status := (dev.tasks slot).state.code })
  | .readJiffies slot status =>
      if choice then .query taskId (.readSubmit slot status (dev.tasks slot).completeJiffies)
      else .query taskId (.readComplete slot status (dev.tasks slot).submitJiffies)
  | .readSubmit slot status complete =>
      .query taskId (.readError slot
        { status with execUsec := usecBetween kernel complete (dev.tasks slot).submitJiffies })
  | .readComplete slot status submit =>
      .query taskId (.readError slot
        { status with execUsec := usecBetween kernel (dev.tasks slot).completeJiffies submit })
  | .readError slot status =>
      .query taskId (.copyOut slot { status with errorCode := (dev.tasks slot).errorCode })
  | .copyOut slot status =>
      if choice then .returned (.query taskId 0 (some (slot, status)))
      else .returned (.query taskId Errno.efault.ret none)

def cancelStep (dev : Dev) (taskId : UInt32) : CancelPhase → Action × ClientPc
  | .scan index =>
      if inRange : index < maxTasks then
        if (dev.tasks ⟨index, inRange⟩).id = taskId then
          (.tau, .cancel taskId (.checkState ⟨index, inRange⟩))
        else (.tau, .cancel taskId (.scan (index + 1)))
      else (.tau, .returned (.cancel taskId Errno.enoent.ret))
  | .checkState slot =>
      if (dev.tasks slot).state ≠ .free then (.tau, .cancel taskId (.writeState slot))
      else (.tau, .cancel taskId (.scan (slot.val + 1)))
  | .writeState slot =>
      (.store slot (.state .cancelled), .cancel taskId (.writeError slot))
  | .writeError slot =>
      (.store slot (.errorCode ecanceledCode), .cancel taskId (.completeAll slot))
  | .completeAll slot => (.store slot .done, .returned (.cancel taskId 0))

/-- One atomic step of a client thread. -/
def clientStep (kernel : Kernel) (dev : Dev) (now : UInt64) :
    ClientInput → ClientPc → Option (Action × ClientPc)
  | .call call copied, .idle => some (.tau, enterCall copied call)
  | .call call copied, .returned _ => some (.tau, enterCall copied call)
  | .advance choice, .submit desc accel phase =>
      some (submitStep dev now choice desc accel phase)
  | .advance choice, .query taskId phase =>
      some (.tau, queryStep kernel dev choice taskId phase)
  | .advance _, .cancel taskId phase => some (cancelStep dev taskId phase)
  -- The snapshot is taken under the mutex; only `load_percent` ever changes.
  | .advance _, .accelInfo info accel =>
      some (.tau, .copyInfo (accelGetInfo (dev.accelerators accel) info))
  | .advance choice, .copyInfo info =>
      some (.tau, .returned (.accelInfo (if choice then 0 else Errno.efault.ret) info))
  | _, _ => none

/-! ## Inversion -/

/-- A step of a client enters a call or is a step of the call it is in. -/
inductive ClientTaken (kernel : Kernel) (dev : Dev) (now : UInt64) :
    ClientInput → ClientPc → Action → ClientPc → Prop
  | enter (call : Call) (copied : Bool) (pc : ClientPc)
      (resting : pc = .idle ∨ ∃ reply, pc = .returned reply) :
      ClientTaken kernel dev now (.call call copied) pc .tau (enterCall copied call)
  | submit (choice : Bool) (desc : TaskDesc) (accel : AccelIndex) (phase : SubmitPhase) :
      ClientTaken kernel dev now (.advance choice) (.submit desc accel phase)
        (submitStep dev now choice desc accel phase).1
        (submitStep dev now choice desc accel phase).2
  | query (choice : Bool) (taskId : UInt32) (phase : QueryPhase) :
      ClientTaken kernel dev now (.advance choice) (.query taskId phase) .tau
        (queryStep kernel dev choice taskId phase)
  | cancel (choice : Bool) (taskId : UInt32) (phase : CancelPhase) :
      ClientTaken kernel dev now (.advance choice) (.cancel taskId phase)
        (cancelStep dev taskId phase).1 (cancelStep dev taskId phase).2
  | accelInfo (choice : Bool) (info : AccelInfo) (accel : AccelIndex) :
      ClientTaken kernel dev now (.advance choice) (.accelInfo info accel) .tau
        (.copyInfo (accelGetInfo (dev.accelerators accel) info))
  | copyInfo (choice : Bool) (info : AccelInfo) :
      ClientTaken kernel dev now (.advance choice) (.copyInfo info) .tau
        (.returned (.accelInfo (if choice then 0 else Errno.efault.ret) info))

theorem clientTaken_of_step {kernel : Kernel} {dev : Dev} {now : UInt64} {input : ClientInput}
    {pc next : ClientPc} {action : Action}
    (taken : clientStep kernel dev now input pc = some (action, next)) :
    ClientTaken kernel dev now input pc action next := by
  cases input with
  | call call copied =>
      cases pc with
      | idle =>
          cases taken
          exact .enter call copied _ (Or.inl rfl)
      | returned reply =>
          cases taken
          exact .enter call copied _ (Or.inr ⟨reply, rfl⟩)
      | _ => cases taken
  | advance choice =>
      cases pc with
      | submit desc accel phase =>
          simp only [clientStep, Option.some.injEq] at taken
          have moved : ClientTaken kernel dev now (.advance choice) (.submit desc accel phase)
            _ _ := .submit choice desc accel phase
          rwa [taken] at moved
      | query taskId phase =>
          cases taken
          exact .query choice taskId phase
      | cancel taskId phase =>
          simp only [clientStep, Option.some.injEq] at taken
          have moved : ClientTaken kernel dev now (.advance choice) (.cancel taskId phase) _ _ :=
            .cancel choice taskId phase
          rwa [taken] at moved
      | accelInfo info accel =>
          cases taken
          exact .accelInfo choice info accel
      | copyInfo info =>
          cases taken
          exact .copyInfo choice info
      | _ => cases taken

/-! ## Where a step leaves the thread -/

/-- A call that begins is at its first step, or has returned with an error. -/
inductive Entered : Call → ClientPc → Prop
  | submit (desc : TaskDesc) (accel : AccelIndex) (accepted : validateDesc desc = .ok accel) :
      Entered (.submit desc) (.submit desc accel .alloc)
  | query (taskId : UInt32) : Entered (.query taskId) (.query taskId (.scan 0))
  | cancel (taskId : UInt32) : Entered (.cancel taskId) (.cancel taskId (.scan 0))
  | accelInfo (info : AccelInfo) (accel : AccelIndex) :
      Entered (.accelInfo info) (.accelInfo info accel)
  | submitFailed (desc : TaskDesc) (errno : Errno) :
      Entered (.submit desc) (.returned (.submit errno.ret desc))
  | queryFailed (taskId : UInt32) (errno : Errno) :
      Entered (.query taskId) (.returned (.query taskId errno.ret none))
  | cancelFailed (taskId : UInt32) (errno : Errno) :
      Entered (.cancel taskId) (.returned (.cancel taskId errno.ret))
  | accelInfoFailed (info : AccelInfo) (errno : Errno) :
      Entered (.accelInfo info) (.returned (.accelInfo errno.ret info))

theorem entered (copied : Bool) (call : Call) : Entered call (enterCall copied call) := by
  cases call with
  | submit desc =>
      simp only [enterCall]
      split
      · split
        next accel accepted => exact .submit desc accel accepted
        next errno rejected => exact .submitFailed desc errno
      · exact .submitFailed desc .efault
  | query taskId =>
      simp only [enterCall]
      split
      · exact .query taskId
      · exact .queryFailed taskId .efault
  | cancel taskId =>
      simp only [enterCall]
      split
      · exact .cancel taskId
      · exact .cancelFailed taskId .efault
  | accelInfo info =>
      simp only [enterCall]
      split
      · split
        · exact .accelInfo info _
        · exact .accelInfoFailed info .einval
      · exact .accelInfoFailed info .efault

/-- A SUBMIT stays in its handler or returns. -/
theorem submitStep_next (dev : Dev) (now : UInt64) (copied : Bool) (desc : TaskDesc)
    (accel : AccelIndex) (phase : SubmitPhase) :
    (∃ after, (submitStep dev now copied desc accel phase).2 = .submit desc accel after) ∨
      ∃ ret reply, (submitStep dev now copied desc accel phase).2 =
        .returned (.submit ret reply) := by
  cases phase <;> simp only [submitStep] <;> (try split) <;> simp

/-- A QUERY stays in its handler or returns. -/
theorem queryStep_next (kernel : Kernel) (dev : Dev) (choice : Bool) (taskId : UInt32)
    (phase : QueryPhase) :
    (∃ after, queryStep kernel dev choice taskId phase = .query taskId after) ∨
      ∃ ret answer, queryStep kernel dev choice taskId phase =
        .returned (.query taskId ret answer) := by
  cases phase <;> simp only [queryStep] <;> (try split) <;> (try split) <;> simp

/-- A CANCEL stays in its handler or returns. -/
theorem cancelStep_next (dev : Dev) (taskId : UInt32) (phase : CancelPhase) :
    (∃ after, (cancelStep dev taskId phase).2 = .cancel taskId after) ∨
      ∃ ret, (cancelStep dev taskId phase).2 = .returned (.cancel taskId ret) := by
  cases phase <;> simp only [cancelStep] <;> (try split) <;> (try split) <;> simp

end CortexForge.Concurrent
