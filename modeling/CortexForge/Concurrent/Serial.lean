import CortexForge.Foundation.Simulation
import CortexForge.Driver.Replies
import CortexForge.Concurrent.Solo
import CortexForge.Concurrent.Mirror

/-!
Contract: calls made one after the other.

`cortexForgeIoctl` runs each call without interruption, on byte images and with faults at any
byte of the user's memory. The machine of the system cuts the same calls into atomic steps on
structures. Here the first is a machine of its own, in which the workers, the stopping thread
and the clock move between the calls, and every history of it is answered by the second: one
block of steps of the calling thread for each call, the same step for each of theirs.

Owns: the sequential driver, the call that a user buffer and a command number make, and what
it means that a result reports a reply.
-/

namespace CortexForge.Concurrent

open CortexForge.Foundation

/-! ## The sequential driver -/

/-- The driver between two calls. -/
structure Serial where
  dev : Dev
  ticks : Nat
  workers : AccelIndex → WorkerPc
  stopper : StopperPc

/-- The system that the driver is, with its clients at rest somewhere. -/
def Serial.system (serial : Serial) (clients : Nat → ClientPc) : System where
  dev := serial.dev
  ticks := serial.ticks
  clients := clients
  workers := serial.workers
  stopper := serial.stopper

inductive SerialLabel where
  | ioctl (thread : Nat) (stack : Nat → UInt8) (user : UserArg) (cmd : UInt32)
  | worker (accel : AccelIndex) (expired : Bool)
  | stopper
  | tick

/-- What a history records: a call with its result, or a step between two calls. -/
inductive SerialEvent where
  | ioctl (thread : Nat) (user : UserArg) (cmd : UInt32) (result : IoctlResult)
  | between (event : Event)

def serialStep (kernel : Kernel) : SerialLabel → Serial → Option (SerialEvent × Serial)
  | .ioctl thread stack user cmd, serial =>
      let result :=
        cortexForgeIoctl kernel stack user (UInt64.ofNat serial.ticks) cmd serial.dev
      some (.ioctl thread user cmd result, { serial with dev := result.dev })
  | .worker accel expired, serial =>
      (workerStep kernel serial.dev (UInt64.ofNat serial.ticks) expired accel
        (serial.workers accel)).map fun (action, pc) =>
          (.between ⟨.worker accel, action⟩,
            { serial with
              dev := action.apply serial.dev
              workers := Function.update serial.workers accel pc })
  | .stopper, serial =>
      (stopperStep serial.dev serial.workers serial.stopper).map fun (action, pc) =>
        (.between ⟨.stopper, action⟩,
          { serial with dev := action.apply serial.dev, stopper := pc })
  | .tick, serial => some (.between ⟨.clock, .tau⟩, { serial with ticks := serial.ticks + 1 })

/-- The device that probe leaves, with every worker at the head of its loop. -/
def serialInitial (ticks : Nat) : Serial := ⟨probe, ticks, fun _ => .loop, .idle⟩

/-- The driver under calls that never overlap. -/
def serialMachine (kernel : Kernel) : Machine Serial SerialLabel SerialEvent where
  Initial := fun serial => ∃ ticks, serial = serialInitial ticks
  step := serialStep kernel

/-! ## Calls and what reports them -/

/-- The call a command makes with a user buffer. The other four commands touch nothing of the
device. -/
def callOf (user : UserArg) : Command → Option Call
  | .submitTask => some (.submit user.desc)
  | .queryTask => some (.query user.queriedId)
  | .cancelTask => some (.cancel user.word)
  | .getAccelInfo => some (.accelInfo user.info)
  | .setPower | .getVersion | .getProfile | .setAccel => none

/-- A result reports a reply to a call: the same return value, and on success the bytes that
were copied out decode to the structure of the reply. -/
def Reports (result : IoctlResult) : Call → Reply → Prop
  | .submit _, .submit ret desc =>
      result.ret = ret ∧
        (ret = 0 → TaskDesc.ofWords (lp64.decode TaskDesc.fields result.copied) = desc)
  | .query asked, .query taskId ret answer =>
      asked = taskId ∧ result.ret = ret ∧ (ret = 0 → ∃ slot, answer =
        some (slot, TaskStatus.ofWords (lp64.decode TaskStatus.fields result.copied)))
  | .cancel asked, .cancel taskId ret =>
      asked = taskId ∧ result.ret = ret ∧ result.copied = []
  | .accelInfo _, .accelInfo ret info =>
      result.ret = ret ∧
        (ret = 0 → AccelInfo.ofWords (lp64.decode AccelInfo.fields result.copied) = info)
  | _, _ => False

/-- A block of the machine answers an event of the sequential driver: the steps of a call are
the calling thread's own, and leave the device that the handler leaves. -/
def AnswersCall : SerialEvent → List Event × System → Prop
  | .between event, (block, _) => block = [event]
  | .ioctl thread user cmd result, (block, reached) =>
      (∀ event ∈ block, event.actor = .client thread) ∧ reached.dev = result.dev ∧
        match (Command.ofNumber cmd).bind (callOf user) with
        | some call =>
            ∃ reply, reached.clients thread = .returned reply ∧ Reports result call reply
        | none => block = []

/-! ## One call -/

section Calls

variable (kernel : Kernel) (stack : Nat → UInt8) (user : UserArg) (now : UInt64) (dev : Dev)
  {pc : ClientPc}

/-- A thread on its own takes the call through to a reply that the result reports. -/
def Serves (pc : ClientPc) (call : Call) (result : IoctlResult) : Prop :=
  ∃ actions reply, Alone (clientProgram kernel now) dev pc actions result.dev
    (.returned reply) ∧ Reports result call reply

variable {kernel now dev} in
/-- A thread at rest enters its next call. -/
theorem serves_of_entered {call : Call} {result : IoctlResult} (copied : Bool)
    (resting : pc.Resting)
    (served : Serves kernel now dev (enterCall copied call) call result) :
    Serves kernel now dev pc call result := by
  obtain ⟨actions, reply, alone, reports⟩ := served
  refine ⟨.tau :: actions, reply, ?_, reports⟩
  rcases resting with rfl | ⟨last, rfl⟩
  · exact .step (.call call copied) rfl alone
  · exact .step (.call call copied) rfl alone

variable {kernel now dev} in
/-- A call that is back already. -/
theorem serves_returned {call : Call} {result : IoctlResult} {reply : Reply}
    (unchanged : result.dev = dev) (reports : Reports result call reply) :
    Serves kernel now dev (.returned reply) call result := by
  refine ⟨[], reply, ?_, reports⟩
  rw [unchanged]
  exact .done dev _

variable {kernel now dev} in
/-- Steps of the thread before the rest of its call. -/
theorem serves_of_alone {call : Call} {result : IoctlResult} {actions : List Action}
    {middle : Dev} {next : ClientPc}
    (alone : Alone (clientProgram kernel now) dev pc actions middle next)
    (served : Serves kernel now middle next call result) :
    Serves kernel now dev pc call result := by
  obtain ⟨more, reply, rest, reports⟩ := served
  exact ⟨actions ++ more, reply, alone.trans rest, reports⟩

/-! ### SUBMIT -/

theorem reports_submit_failed (errno : Errno) (request desc : TaskDesc) (left : Dev)
    (copied : List UInt8) :
    Reports ⟨errno.ret, left, copied⟩ (.submit request) (.submit errno.ret desc) :=
  ⟨rfl, fun zero => absurd zero (Errno.ret_neg errno).ne⟩

/-- The atomic steps of SUBMIT on its own up to the copy of the descriptor, where both the
handler and the machine learn whether the buffer can be written. -/
theorem submit_to_copy {allocated : Dev} {desc : TaskDesc} {accel : AccelIndex} {slot : Slot}
    (accepted : validateDesc desc = .ok accel)
    (alloc : taskAlloc dev = some (slot, allocated)) :
    ∃ actions, Alone (clientProgram kernel now) dev (.submit desc accel .alloc) actions
      (taskSubmit now slot accel (allocated.modifyTask slot (fillTask desc))).2
      (.submit desc accel (.copyOut
        (((taskSubmit now slot accel
          (allocated.modifyTask slot (fillTask desc))).2.tasks slot).id))) := by
  obtain ⟨action, taken, rfl⟩ := taskAlloc_step kernel now desc accel alloc
  have inRange : ¬ numAccelerators ≤
      (((action.apply dev).modifyTask slot (fillTask desc)).tasks slot).accelType.toNat := by
    rw [Dev.modifyTask_same, fillTask, validateDesc_ok accepted]
    exact Nat.not_le.mpr accel.isLt
  have checked : clientProgram kernel now ((action.apply dev).modifyTask slot (fillTask desc))
      (.advance true) (.submit desc accel (.check slot)) =
        some (.tau, .submit desc accel (.writePending slot)) := by
    simp only [clientProgram, clientStep, submitStep, if_neg inRange]
  rw [taskSubmit, if_neg inRange]
  exact ⟨_, .step _ taken (.step (.advance true) rfl (.step _ checked
    (.step (.advance true) rfl (.step (.advance true) rfl (.step (.advance true) rfl
      (.step (.advance true) rfl (.step (.advance true) rfl
        (.step (.advance true) rfl (.done _ _)))))))))⟩

/-- The copy of the descriptor with the id of its task. -/
theorem serves_submit_copy (accel : AccelIndex) (taskId : UInt32) :
    Serves kernel now dev (.submit user.desc accel (.copyOut taskId)) (.submit user.desc)
      (reply user dev
        (lp64.store TaskDesc.fields 0 taskId.toNat (user.image TaskDesc.fields))) := by
  have size := taskDesc_store_length taskId.toNat _ (user.image_length TaskDesc.fields)
  by_cases writable : lp64.sizeof TaskDesc.fields ≤ user.writable
  · refine serves_of_alone (.step (.advance true) rfl (.done _ _))
      (serves_returned (reply_dev _ _ _) ⟨?_, fun _ => ?_⟩)
    · rw [reply_ret, size, if_pos writable]
    · rw [reply_copied, List.take_of_length_le (size.trans_le writable)]
      exact decode_submit_reply user taskId
  · refine serves_of_alone (.step (.advance false) rfl (.done _ _))
      (serves_returned (reply_dev _ _ _) ⟨?_, fun zero => ?_⟩)
    · rw [reply_ret, size, if_neg writable]
    · exact absurd zero (Errno.ret_neg .efault).ne

theorem serves_submit (resting : pc.Resting) :
    Serves kernel now dev pc (.submit user.desc) (ioctlSubmitTask stack user now dev) := by
  rw [ioctlSubmitTask_eq]
  by_cases readable : lp64.sizeof TaskDesc.fields ≤ user.readable
  · rw [if_pos readable]
    refine serves_of_entered true resting ?_
    simp only [submitCopied, enterCall, ↓reduceIte]
    rw [show TaskDesc.ofWords (lp64.decode TaskDesc.fields (user.image TaskDesc.fields)) =
      user.desc from rfl]
    cases accepted : validateDesc user.desc with
    | error errno => exact serves_returned rfl (reports_submit_failed errno _ _ _ _)
    | ok accel =>
        dsimp only
        cases alloc : taskAlloc dev with
        | none =>
            have full : dev.freeTasks = [] := by
              cases free : dev.freeTasks with
              | nil => rfl
              | cons slot rest => simp [taskAlloc, free] at alloc
            have refused : clientProgram kernel now dev (.advance true)
                (.submit user.desc accel .alloc) =
                  some (.tau, .returned (.submit Errno.enomem.ret user.desc)) := by
              simp only [clientProgram, clientStep, submitStep, full]
            exact serves_of_alone (.step _ refused (.done _ _))
              (serves_returned rfl (reports_submit_failed .enomem _ _ _ _))
        | some pair =>
            obtain ⟨slot, allocated⟩ := pair
            obtain ⟨actions, submitted⟩ := submit_to_copy kernel now dev accepted alloc
            simp only [taskSubmit_ret_of_filled accepted, ne_eq, not_true_eq_false, ↓reduceIte]
            exact serves_of_alone submitted (serves_submit_copy kernel user now _ accel _)
  · rw [if_neg readable]
    exact serves_of_entered false resting
      (serves_returned rfl (reports_submit_failed .efault _ _ _ _))

/-! ### QUERY -/

theorem reports_query_failed (errno : Errno) (taskId : UInt32) (left : Dev)
    (copied : List UInt8) :
    Reports ⟨errno.ret, left, copied⟩ (.query taskId) (.query taskId errno.ret none) :=
  ⟨rfl, rfl, fun zero => absurd zero (Errno.ret_neg errno).ne⟩

/-- The copy of a status. -/
theorem serves_query_copy (taskId : UInt32) (slot : Slot) {status : TaskStatus}
    (cleared : status.reserved = fun _ => 0) :
    Serves kernel now dev (.query taskId (.copyOut slot status)) (.query taskId)
      (reply user dev (storeTaskStatus status (clearedImage TaskStatus.fields))) := by
  have size := storeAll_length (statusWrites_fit status) (clearedImage_length TaskStatus.fields)
  rw [← storeTaskStatus_eq] at size
  by_cases writable : lp64.sizeof TaskStatus.fields ≤ user.writable
  · refine serves_of_alone (.step (.advance true) rfl (.done _ _))
      (serves_returned (reply_dev _ _ _) ⟨rfl, ?_, fun _ => ⟨slot, ?_⟩⟩)
    · rw [reply_ret, size, if_pos writable]
    · rw [reply_copied, List.take_of_length_le (size.trans_le writable),
        decode_query_reply cleared]
  · refine serves_of_alone (.step (.advance false) rfl (.done _ _))
      (serves_returned (reply_dev _ _ _) ⟨rfl, ?_, fun zero => ?_⟩)
    · rw [reply_ret, size, if_neg writable]
    · exact absurd zero (Errno.ret_neg .efault).ne

theorem serves_query (resting : pc.Resting) :
    Serves kernel now dev pc (.query user.queriedId) (ioctlQueryTask kernel stack user dev) := by
  rw [ioctlQueryTask_eq]
  by_cases readable : lp64.sizeof TaskStatus.fields ≤ user.readable
  · rw [if_pos readable]
    refine serves_of_entered true resting ?_
    simp only [enterCall, ↓reduceIte, taskQuery]
    obtain ⟨actions, scanned⟩ := (Scanner.query kernel now user.queriedId).alone dev
    refine serves_of_alone scanned ?_
    cases found : findTask dev user.queriedId with
    | none => exact serves_returned rfl (reports_query_failed .enoent _ _ _)
    | some slot =>
        have copying := serves_query_copy kernel user now dev user.queriedId slot
          (show (taskStatus kernel (dev.tasks slot)).reserved = fun _ => 0 from rfl)
        exact serves_of_alone (.step (.advance true) rfl (.step (.advance true) rfl
          (.step (.advance true) rfl (.step (.advance true) rfl
            (.step (.advance true) rfl (.done _ _)))))) copying
  · rw [if_neg readable]
    exact serves_of_entered false resting
      (serves_returned rfl (reports_query_failed .efault _ _ _))

/-! ### CANCEL -/

theorem serves_cancel (resting : pc.Resting) :
    Serves kernel now dev pc (.cancel user.word) (ioctlCancelTask stack user dev) := by
  rw [ioctlCancelTask_eq]
  by_cases readable : lp64.sizeof [.word32] ≤ user.readable
  · rw [if_pos readable]
    obtain ⟨actions, cancelled⟩ := cancel_alone kernel now dev user.word
    refine serves_of_entered true resting ?_
    exact ⟨actions, _, cancelled, rfl, rfl, rfl⟩
  · rw [if_neg readable]
    exact serves_of_entered false resting (serves_returned rfl ⟨rfl, rfl, rfl⟩)

/-! ### GET_ACCEL_INFO -/

theorem reports_accelInfo_failed (errno : Errno) (request info : AccelInfo) (left : Dev)
    (copied : List UInt8) :
    Reports ⟨errno.ret, left, copied⟩ (.accelInfo request) (.accelInfo errno.ret info) :=
  ⟨rfl, fun zero => absurd zero (Errno.ret_neg errno).ne⟩

/-- The copy of a snapshot. -/
theorem serves_accelInfo_copy (accel : Accel) :
    Serves kernel now dev (.copyInfo (accelGetInfo accel user.info)) (.accelInfo user.info)
      (reply user dev (storeAccelInfo accel (user.image AccelInfo.fields))) := by
  have size := storeAll_length (infoWrites_fit accel) (user.image_length AccelInfo.fields)
  rw [← storeAccelInfo_eq] at size
  by_cases writable : lp64.sizeof AccelInfo.fields ≤ user.writable
  · refine serves_of_alone (.step (.advance true) rfl (.done _ _))
      (serves_returned (reply_dev _ _ _) ⟨?_, fun _ => ?_⟩)
    · rw [reply_ret, size, if_pos writable]
      rfl
    · rw [reply_copied, List.take_of_length_le (size.trans_le writable)]
      exact decode_accelInfo_reply user accel
  · refine serves_of_alone (.step (.advance false) rfl (.done _ _))
      (serves_returned (reply_dev _ _ _) ⟨?_, fun zero => ?_⟩)
    · rw [reply_ret, size, if_neg writable]
      rfl
    · exact absurd zero (Errno.ret_neg .efault).ne

theorem serves_accelInfo (resting : pc.Resting) :
    Serves kernel now dev pc (.accelInfo user.info) (ioctlGetAccelInfo stack user dev) := by
  rw [ioctlGetAccelInfo_eq]
  by_cases readable : lp64.sizeof AccelInfo.fields ≤ user.readable
  · rw [if_pos readable]
    refine serves_of_entered true resting ?_
    simp only [enterCall, ↓reduceIte]
    by_cases inRange : user.info.accelType.toNat < numAccelerators
    · rw [dif_pos inRange, dif_pos inRange]
      exact serves_of_alone (.step (.advance true) rfl (.done _ _))
        (serves_accelInfo_copy kernel user now dev _)
    · rw [dif_neg inRange, dif_neg inRange]
      exact serves_returned rfl (reports_accelInfo_failed .einval _ _ _ _)
  · rw [if_neg readable]
    exact serves_of_entered false resting
      (serves_returned rfl (reports_accelInfo_failed .efault _ _ _ _))

end Calls

/-! ## Histories -/

/-- The states of the two machines at corresponding points: no call is under way, and the rest
is the same. -/
structure InStep (serial : Serial) (system : System) : Prop where
  same : system = serial.system system.clients
  resting : ∀ thread, (system.clients thread).Resting

theorem ioctlCheckWord_dev (bound : UInt32) (stack : Nat → UInt8) (user : UserArg) (dev : Dev) :
    (ioctlCheckWord bound stack user dev).dev = dev := by
  rw [ioctlCheckWord_eq]
  split
  · split <;> rfl
  · rfl

/-- The commands that are no call of the machine leave the device as it is. -/
theorem cortexForgeIoctl_dev_of_no_call {kernel : Kernel} {stack : Nat → UInt8} {user : UserArg}
    {now : UInt64} {cmd : UInt32} {dev : Dev}
    (noCall : (Command.ofNumber cmd).bind (callOf user) = none) :
    (cortexForgeIoctl kernel stack user now cmd dev).dev = dev := by
  unfold cortexForgeIoctl
  cases known : Command.ofNumber cmd with
  | none => rfl
  | some command =>
      rw [known] at noCall
      cases command with
      | setPower => exact ioctlCheckWord_dev _ _ _ _
      | getVersion => exact reply_dev _ _ _
      | getProfile => exact reply_dev _ _ _
      | setAccel => exact ioctlCheckWord_dev _ _ _ _
      | _ => cases noCall

/-- A call of the machine is served by the thread that makes it. -/
theorem serves_call {kernel : Kernel} {user : UserArg} {cmd : UInt32} {call : Call}
    (isCall : (Command.ofNumber cmd).bind (callOf user) = some call) (stack : Nat → UInt8)
    (now : UInt64) (dev : Dev) {pc : ClientPc} (resting : pc.Resting) :
    Serves kernel now dev pc call (cortexForgeIoctl kernel stack user now cmd dev) := by
  obtain ⟨command, known, made⟩ := Option.bind_eq_some_iff.mp isCall
  unfold cortexForgeIoctl
  rw [known]
  cases command with
  | submitTask =>
      cases made
      exact serves_submit kernel stack user now dev resting
  | queryTask =>
      cases made
      exact serves_query kernel stack user now dev resting
  | cancelTask =>
      cases made
      exact serves_cancel kernel stack user now dev resting
  | getAccelInfo =>
      cases made
      exact serves_accelInfo kernel stack user now dev resting
  | _ => cases made

/-- A call is answered by the steps of the thread that makes it. -/
theorem call_answered (kernel : Kernel) (thread : Nat) (stack : Nat → UInt8) (user : UserArg)
    (cmd : UInt32) (serial : Serial) {clients : Nat → ClientPc}
    (resting : ∀ thread, (clients thread).Resting) (result : IoctlResult)
    (served : cortexForgeIoctl kernel stack user (UInt64.ofNat serial.ticks) cmd serial.dev =
      result) :
    ∃ block reached, (machine kernel).Steps (serial.system clients) block reached ∧
      InStep { serial with dev := result.dev } reached ∧
      AnswersCall (.ioctl thread user cmd result) (block, reached) := by
  cases isCall : (Command.ofNumber cmd).bind (callOf user) with
  | none =>
      have sameDev : serial.dev = result.dev := by
        rw [← served, cortexForgeIoctl_dev_of_no_call isCall]
      refine ⟨[], serial.system clients, .refl _, ⟨?_, resting⟩, ?_, sameDev, ?_⟩
      · rw [← sameDev]
        rfl
      · exact fun event member => absurd member List.not_mem_nil
      · rw [isCall]
  | some call =>
      obtain ⟨actions, reply, alone, reports⟩ := serves_call isCall stack
        (UInt64.ofNat serial.ticks) serial.dev (resting thread)
      rw [served] at alone reports
      have steps := alone.client_steps thread (serial.system clients) rfl rfl rfl
      refine ⟨_, _, steps, ⟨rfl, fun other => ?_⟩, fun event member => ?_, rfl, ?_⟩
      · by_cases same : other = thread
        · subst same
          exact Or.inr ⟨reply, Function.update_self ..⟩
        · simpa [same, Serial.system] using resting other
      · obtain ⟨action, -, rfl⟩ := List.mem_map.mp member
        rfl
      · rw [isCall]
        exact ⟨reply, Function.update_self .., reports⟩

/-- Every step of the sequential driver is answered by the machine. -/
theorem serial_answered {kernel : Kernel} {label : SerialLabel} {event : SerialEvent}
    {serial next : Serial} {system : System}
    (taken : (serialMachine kernel).step label serial = some (event, next))
    (inStep : InStep serial system) :
    ∃ block reached, (machine kernel).Steps system block reached ∧ InStep next reached ∧
      AnswersCall event (block, reached) := by
  obtain ⟨same, resting⟩ := inStep
  rw [same]
  cases label with
  | ioctl thread stack user cmd =>
      cases taken
      exact call_answered kernel thread stack user cmd serial resting _ rfl
  | worker accel expired =>
      change serialStep kernel (.worker accel expired) serial = _ at taken
      simp only [serialStep, Option.map_eq_some_iff, Prod.mk.injEq] at taken
      obtain ⟨⟨action, pc⟩, moved, rfl, rfl⟩ := taken
      have stepped : (machine kernel).step (.worker accel expired)
          (serial.system system.clients) = some (⟨.worker accel, action⟩, _) := step_worker moved
      exact ⟨_, _, Machine.Steps.single (.worker accel expired) stepped, ⟨rfl, resting⟩, rfl⟩
  | stopper =>
      change serialStep kernel .stopper serial = _ at taken
      simp only [serialStep, Option.map_eq_some_iff, Prod.mk.injEq] at taken
      obtain ⟨⟨action, pc⟩, moved, rfl, rfl⟩ := taken
      have stepped : (machine kernel).step .stopper (serial.system system.clients) =
          some (⟨.stopper, action⟩, _) := step_stopper moved
      exact ⟨_, _, Machine.Steps.single .stopper stepped, ⟨rfl, resting⟩, rfl⟩
  | tick =>
      cases taken
      exact ⟨_, _, Machine.Steps.single .tick rfl, ⟨rfl, resting⟩, rfl⟩

/-- Every history of calls that do not overlap, made through the handlers on byte images while
the workers, the stopping thread and the clock move between them, is a run of the machine: the
same steps between the calls, and for each call one block of the calling thread's own steps.
Each block leaves the device that the handler leaves, and the thread with the reply that the
handler's return value and copied bytes report. -/
theorem serial_histories_run (kernel : Kernel) {history : List SerialEvent} {serial : Serial}
    (run : (serialMachine kernel).Run history serial) :
    ∃ ticks blocks system, (machine kernel).Blocks (initial ticks) blocks system ∧
      InStep serial system ∧ List.Forall₂ AnswersCall history blocks := by
  have initially : ∀ serial, (serialMachine kernel).Initial serial →
      ∃ system, (machine kernel).Initial system ∧ InStep serial system := by
    rintro _ ⟨ticks, rfl⟩
    exact ⟨initial ticks, ⟨ticks, rfl⟩, rfl, fun _ => Or.inl rfl⟩
  obtain ⟨start, blocks, system, ⟨ticks, rfl⟩, chained, inStep, answered⟩ :=
    run.answered InStep AnswersCall initially
      fun _ _ _ _ _ taken inStep => serial_answered taken inStep
  exact ⟨ticks, blocks, system, chained, inStep, answered⟩

/-- A submission whose reply cannot be written, one round of the worker, and a query of the
task that was queued all the same. -/
def queuedAnywaySchedule : List SerialLabel :=
  .ioctl 0 (fun _ => 0) readOnlyDesc Command.submitTask.number ::
    (List.replicate 9 (.worker 0 false) ++ List.replicate 12 .tick ++
      List.replicate 8 (.worker 0 false) ++
      [.ioctl 0 (fun _ => 0) ⟨fun index => if index = 0 then 1 else 0, 32, 32⟩
        Command.queryTask.number])

theorem serial_histories_run_queued :
    ∃ history serial, (serialMachine Kernel.hz1000).execute queuedAnywaySchedule
        (serialInitial 0) = some (history, serial) ∧
      ∃ ticks blocks system, (machine Kernel.hz1000).Blocks (initial ticks) blocks system ∧
        InStep serial system ∧ List.Forall₂ AnswersCall history blocks := by
  have enabled : ((serialMachine Kernel.hz1000).execute queuedAnywaySchedule
      (serialInitial 0)).isSome := by decide +kernel
  obtain ⟨⟨history, serial⟩, executed⟩ := Option.isSome_iff_exists.mp enabled
  exact ⟨history, serial, executed, serial_histories_run Kernel.hz1000
    ⟨_, ⟨0, rfl⟩, Machine.steps_of_execute executed⟩⟩

end CortexForge.Concurrent
