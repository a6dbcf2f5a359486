import CortexForge.Driver.AccelManager

/-!
Contract: `cortex_forge_ioctl`, executed on its own.

Source: `src/chardev.c`. The handler works on byte images: a local structure is
the bytes of its stack frame, `copy_from_user` overwrites them, and a field
store patches them, so padding and reserved bytes are carried exactly as the
code carries them.

Owns: the user argument, the two copy primitives, the eight handlers, what a
failing submission leaves behind, and that no reply depends on what the stack
held before.

Does not own: `open` and `release`, which keep no state, and the messages of
`dev_info`.
-/

namespace CortexForge

open CortexForge.Foundation

/-! ## User memory -/

/-- User memory from the ioctl argument on: its bytes, and how many of them can
be read and written before an access faults. -/
structure UserArg where
  bytes : Nat → UInt8
  readable : Nat
  writable : Nat

/-- `copy_from_user` into a local buffer; `none` when not every byte could be
copied. -/
def UserArg.copyFrom (user : UserArg) (buffer : List UInt8) : Option (List UInt8) :=
  if buffer.length ≤ user.readable then
    some (patch 0 ((List.range buffer.length).map user.bytes) buffer)
  else
    none

/-- `copy_to_user`: whether every byte was copied, and the bytes that were. -/
def UserArg.copyTo (user : UserArg) (buffer : List UInt8) : Bool × List UInt8 :=
  (decide (buffer.length ≤ user.writable), buffer.take user.writable)

/-- An uninitialised local of the given size. -/
def uninitialised (stack : Nat → UInt8) (size : Nat) : List UInt8 :=
  (List.range size).map stack

/-- `memset(&local, 0, sizeof(local))`. -/
def memsetZero (buffer : List UInt8) : List UInt8 :=
  patch 0 (List.replicate buffer.length 0) buffer

/-- What one call returns, the device it leaves, and the bytes it copied to
user space. -/
structure IoctlResult where
  ret : Int
  dev : Dev
  copied : List UInt8

/-- The exit `if (copy_to_user(uarg, &reply, sizeof(reply))) return -EFAULT;
return 0;` shared by every handler that replies. -/
def reply (user : UserArg) (dev : Dev) (image : List UInt8) : IoctlResult :=
  match user.copyTo image with
  | (true, copied) => ⟨0, dev, copied⟩
  | (false, copied) => ⟨Errno.efault.ret, dev, copied⟩

/-- An exit that copies nothing to user space. -/
def leave (ret : Int) (dev : Dev) : IoctlResult := ⟨ret, dev, []⟩

/-! ## Submission -/

/-- `64 * 1024 * 1024`. -/
def maxBufferSize : UInt32 := 64 * 1024 * 1024

/-- The checks of the SUBMIT handler in source order. The accepted accelerator
is the one whose array element the handler then takes. -/
def validateDesc (desc : TaskDesc) : Except Errno AccelIndex :=
  if inRange : desc.accelType.toNat < numAccelerators then
    if desc.flags ≠ 0 then .error .einval
    else if maxBufferSize < desc.inputSize then .error .e2big
    else if maxBufferSize < desc.outputSize then .error .e2big
    else .ok ⟨desc.accelType.toNat, inRange⟩
  else
    .error .einval

/-- The seven payload stores of the SUBMIT handler. -/
def fillTask (desc : TaskDesc) (task : Task) : Task :=
  { task with
    accelType := desc.accelType
    priority := desc.priority
    inputAddr := desc.inputAddr
    inputSize := desc.inputSize
    outputAddr := desc.outputAddr
    outputSize := desc.outputSize
    timeoutMs := desc.timeoutMs }

/-- The SUBMIT handler after a successful `copy_from_user`, with the image of
`desc` it holds. -/
def submitCopied (user : UserArg) (now : UInt64) (image : List UInt8) (dev : Dev) :
    IoctlResult :=
  let desc := TaskDesc.ofWords (lp64.decode TaskDesc.fields image)
  match validateDesc desc with
  | .error errno => leave errno.ret dev
  | .ok accel =>
      match taskAlloc dev with
      | none => leave Errno.enomem.ret dev
      | some (slot, dev) =>
          let (ret, dev) := taskSubmit now slot accel (dev.modifyTask slot (fillTask desc))
          if ret ≠ 0 then
            leave ret (taskFree slot dev)
          else
            reply user dev (lp64.store TaskDesc.fields 0 (dev.tasks slot).id.toNat image)

/-- `CORTEX_FORGE_IOCTL_SUBMIT_TASK`. -/
def ioctlSubmitTask (stack : Nat → UInt8) (user : UserArg) (now : UInt64) (dev : Dev) :
    IoctlResult :=
  match user.copyFrom (uninitialised stack (lp64.sizeof TaskDesc.fields)) with
  | none => leave Errno.efault.ret dev
  | some image => submitCopied user now image dev

/-! ## The other commands -/

/-- The four stores of `task_query` into the `status` it has cleared. -/
def storeTaskStatus (status : TaskStatus) (image : List UInt8) : List UInt8 :=
  let image := lp64.store TaskStatus.fields 0 status.taskId.toNat image
  let image := lp64.store TaskStatus.fields 1 status.status.toNat image
  let image := lp64.store TaskStatus.fields 2 status.execUsec.toNat image
  lp64.store TaskStatus.fields 3 status.errorCode.toUInt32.toNat image

/-- `CORTEX_FORGE_IOCTL_QUERY_TASK`. `task_query` fills a second local, which lies
beyond the handler's own on the stack. -/
def ioctlQueryTask (kernel : Kernel) (stack : Nat → UInt8) (user : UserArg) (dev : Dev) :
    IoctlResult :=
  match user.copyFrom (uninitialised stack (lp64.sizeof TaskStatus.fields)) with
  | none => leave Errno.efault.ret dev
  | some image =>
      let request := TaskStatus.ofWords (lp64.decode TaskStatus.fields image)
      match taskQuery kernel dev request.taskId with
      | none => leave Errno.enoent.ret dev
      | some status =>
          let beyond := fun index => stack (lp64.sizeof TaskStatus.fields + index)
          reply user dev (storeTaskStatus status
            (memsetZero (uninitialised beyond (lp64.sizeof TaskStatus.fields))))

/-- The single `u32` of the small commands. -/
def decodeWord (image : List UInt8) : UInt32 :=
  UInt32.ofNat ((lp64.decode [.word32] image).getD 0 0)

/-- `CORTEX_FORGE_IOCTL_CANCEL_TASK`. -/
def ioctlCancelTask (stack : Nat → UInt8) (user : UserArg) (dev : Dev) : IoctlResult :=
  match user.copyFrom (uninitialised stack (lp64.sizeof [.word32])) with
  | none => leave Errno.efault.ret dev
  | some image =>
      match taskCancel dev (decodeWord image) with
      | (ret, dev) => leave ret dev

/-- The eight stores of `accel_get_info` into the caller's `info`. -/
def storeAccelInfo (accel : Accel) (image : List UInt8) : List UInt8 :=
  let image := lp64.store AccelInfo.fields 1 accel.freqHz.toNat image
  let image := lp64.store AccelInfo.fields 2 accel.tempCelsius.toUInt32.toNat image
  let image := lp64.store AccelInfo.fields 3 accel.loadPercent.toNat image
  let image := lp64.store AccelInfo.fields 4 accel.fwVersion.toNat image
  let image := lp64.store AccelInfo.fields 5 accel.hwVersion.toNat image
  let image := lp64.store AccelInfo.fields 6 accel.memTotal.toNat image
  let image := lp64.store AccelInfo.fields 7 accel.memFree.toNat image
  lp64.store AccelInfo.fields 8 accel.state.toNat image

/-- `CORTEX_FORGE_IOCTL_GET_ACCEL_INFO`. -/
def ioctlGetAccelInfo (stack : Nat → UInt8) (user : UserArg) (dev : Dev) : IoctlResult :=
  match user.copyFrom (uninitialised stack (lp64.sizeof AccelInfo.fields)) with
  | none => leave Errno.efault.ret dev
  | some image =>
      let info := AccelInfo.ofWords (lp64.decode AccelInfo.fields image)
      if inRange : info.accelType.toNat < numAccelerators then
        reply user dev
          (storeAccelInfo (dev.accelerators ⟨info.accelType.toNat, inRange⟩) image)
      else
        leave Errno.einval.ret dev

/-- The commands that read one word and only check it against a bound. -/
def ioctlCheckWord (bound : UInt32) (stack : Nat → UInt8) (user : UserArg) (dev : Dev) :
    IoctlResult :=
  match user.copyFrom (uninitialised stack (lp64.sizeof [.word32])) with
  | none => leave Errno.efault.ret dev
  | some image =>
      if bound < decodeWord image then leave Errno.einval.ret dev else leave 0 dev

/-- `CORTEX_FORGE_IOCTL_SET_POWER`. -/
def ioctlSetPower (stack : Nat → UInt8) (user : UserArg) (dev : Dev) : IoctlResult :=
  ioctlCheckWord 2 stack user dev

/-- `CORTEX_FORGE_IOCTL_SET_ACCEL`. -/
def ioctlSetAccel (stack : Nat → UInt8) (user : UserArg) (dev : Dev) : IoctlResult :=
  ioctlCheckWord 4 stack user dev

/-- The version word, `0x00010000`. -/
def driverVersion : UInt32 := 0x00010000

/-- `CORTEX_FORGE_IOCTL_GET_VERSION`. -/
def ioctlGetVersion (stack : Nat → UInt8) (user : UserArg) (dev : Dev) : IoctlResult :=
  reply user dev (lp64.store [.word32] 0 driverVersion.toNat
    (uninitialised stack (lp64.sizeof [.word32])))

/-- The metrics of `CORTEX_FORGE_IOCTL_GET_PROFILE`. -/
def profileMetrics : ProfileMetrics where
  computeUs := 1000
  memoryUs := 500
  storageUs := 200
  networkUs := 300
  thermalCelsius := 45
  powerMw := 15000
  reserved := fun _ => 0

/-- The six stores of the GET_PROFILE handler into the `pm` it has cleared. -/
def storeProfileMetrics (metrics : ProfileMetrics) (image : List UInt8) : List UInt8 :=
  let image := lp64.store ProfileMetrics.fields 0 metrics.computeUs.toNat image
  let image := lp64.store ProfileMetrics.fields 1 metrics.memoryUs.toNat image
  let image := lp64.store ProfileMetrics.fields 2 metrics.storageUs.toNat image
  let image := lp64.store ProfileMetrics.fields 3 metrics.networkUs.toNat image
  let image := lp64.store ProfileMetrics.fields 4 metrics.thermalCelsius.toNat image
  lp64.store ProfileMetrics.fields 5 metrics.powerMw.toNat image

/-- `CORTEX_FORGE_IOCTL_GET_PROFILE`. -/
def ioctlGetProfile (stack : Nat → UInt8) (user : UserArg) (dev : Dev) : IoctlResult :=
  reply user dev (storeProfileMetrics profileMetrics
    (memsetZero (uninitialised stack (lp64.sizeof ProfileMetrics.fields))))

/-- `cortex_forge_ioctl`. -/
def cortexForgeIoctl (kernel : Kernel) (stack : Nat → UInt8) (user : UserArg) (now : UInt64)
    (cmd : UInt32) (dev : Dev) : IoctlResult :=
  match Command.ofNumber cmd with
  | some .submitTask => ioctlSubmitTask stack user now dev
  | some .queryTask => ioctlQueryTask kernel stack user dev
  | some .cancelTask => ioctlCancelTask stack user dev
  | some .getAccelInfo => ioctlGetAccelInfo stack user dev
  | some .setPower => ioctlSetPower stack user dev
  | some .getVersion => ioctlGetVersion stack user dev
  | some .getProfile => ioctlGetProfile stack user dev
  | some .setAccel => ioctlSetAccel stack user dev
  | none => leave Errno.enotty.ret dev

/-- Each command number reaches its own handler. -/
theorem cortexForgeIoctl_number (kernel : Kernel) (stack : Nat → UInt8) (user : UserArg)
    (now : UInt64) (command : Command) (dev : Dev) :
    cortexForgeIoctl kernel stack user now command.number dev =
      match command with
      | .submitTask => ioctlSubmitTask stack user now dev
      | .queryTask => ioctlQueryTask kernel stack user dev
      | .cancelTask => ioctlCancelTask stack user dev
      | .getAccelInfo => ioctlGetAccelInfo stack user dev
      | .setPower => ioctlSetPower stack user dev
      | .getVersion => ioctlGetVersion stack user dev
      | .getProfile => ioctlGetProfile stack user dev
      | .setAccel => ioctlSetAccel stack user dev := by
  unfold cortexForgeIoctl
  rw [Command.ofNumber_number]
  cases command <;> rfl

/-! ## Copying a whole structure -/

theorem patch_zero_of_length_eq {data buffer : List UInt8}
    (sameLength : data.length = buffer.length) : patch 0 data buffer = data := by
  simp [patch, sameLength]

@[simp] theorem uninitialised_length (stack : Nat → UInt8) (size : Nat) :
    (uninitialised stack size).length = size := by
  simp [uninitialised]

/-- A successful `copy_from_user` leaves nothing of the old buffer. -/
theorem copyFrom_uninitialised (user : UserArg) (stack : Nat → UInt8) (size : Nat) :
    user.copyFrom (uninitialised stack size) =
      if size ≤ user.readable then some ((List.range size).map user.bytes) else none := by
  unfold UserArg.copyFrom
  rw [uninitialised_length, patch_zero_of_length_eq (by simp)]

/-- A cleared local holds nothing but zeros. -/
theorem memsetZero_uninitialised (stack : Nat → UInt8) (size : Nat) :
    memsetZero (uninitialised stack size) = List.replicate size 0 := by
  unfold memsetZero
  rw [uninitialised_length, patch_zero_of_length_eq (by simp)]

/-- A local initialised with one word holds that word. -/
theorem store_word_uninitialised (stack : Nat → UInt8) (word : UInt32) :
    lp64.store [.word32] 0 word.toNat (uninitialised stack (lp64.sizeof [.word32])) =
      leBytes 4 word.toNat := by
  have size : lp64.sizeof [.word32] = 4 := by decide
  rw [size]
  exact patch_zero_of_length_eq (by rw [leBytes_length, uninitialised_length]; rfl)

theorem reply_dev (user : UserArg) (dev : Dev) (image : List UInt8) :
    (reply user dev image).dev = dev := by
  unfold reply UserArg.copyTo
  split <;> rfl

theorem reply_copied (user : UserArg) (dev : Dev) (image : List UInt8) :
    (reply user dev image).copied = image.take user.writable := by
  unfold reply UserArg.copyTo
  split <;> simp_all

theorem reply_ret (user : UserArg) (dev : Dev) (image : List UInt8) :
    (reply user dev image).ret =
      if image.length ≤ user.writable then 0 else Errno.efault.ret := by
  unfold reply UserArg.copyTo
  by_cases fits : image.length ≤ user.writable
  · simp [fits]
  · simp [fits]

/-! ## No trace of the stack -/

/-- Whatever a call finds in its uninitialised locals, it returns the same value, leaves
the same device and copies the same bytes to user space: every local is overwritten as
a whole, by `copy_from_user`, by `memset` or by its initialiser, before it is read. -/
theorem ioctl_independent_of_stack (kernel : Kernel) (user : UserArg) (now : UInt64)
    (cmd : UInt32) (dev : Dev) (stack other : Nat → UInt8) :
    cortexForgeIoctl kernel stack user now cmd dev =
      cortexForgeIoctl kernel other user now cmd dev := by
  unfold cortexForgeIoctl
  cases Command.ofNumber cmd with
  | none => rfl
  | some command =>
      cases command with
      | submitTask => simp only [ioctlSubmitTask, copyFrom_uninitialised]
      | queryTask =>
          simp only [ioctlQueryTask, copyFrom_uninitialised, memsetZero_uninitialised]
      | cancelTask => simp only [ioctlCancelTask, copyFrom_uninitialised]
      | getAccelInfo => simp only [ioctlGetAccelInfo, copyFrom_uninitialised]
      | setPower => simp only [ioctlSetPower, ioctlCheckWord, copyFrom_uninitialised]
      | getVersion => simp only [ioctlGetVersion, store_word_uninitialised]
      | getProfile => simp only [ioctlGetProfile, memsetZero_uninitialised]
      | setAccel => simp only [ioctlSetAccel, ioctlCheckWord, copyFrom_uninitialised]

/-! ## Submission is undone on every failure but the last -/

/-- The descriptor the SUBMIT handler decodes from readable user memory. -/
def UserArg.desc (user : UserArg) : TaskDesc :=
  TaskDesc.ofWords (lp64.decode TaskDesc.fields
    ((List.range (lp64.sizeof TaskDesc.fields)).map user.bytes))

theorem UserArg.desc_eq (user : UserArg) :
    TaskDesc.ofWords (lp64.decode TaskDesc.fields
      ((List.range (lp64.sizeof TaskDesc.fields)).map user.bytes)) = user.desc := rfl

theorem validateDesc_ok {desc : TaskDesc} {accel : AccelIndex}
    (accepted : validateDesc desc = .ok accel) : desc.accelType.toNat = accel.val := by
  unfold validateDesc at accepted
  split_ifs at accepted
  cases accepted
  rfl

/-- The range check of `task_submit` repeats one the handler has made, so the
roll-back behind it is never reached. -/
theorem taskSubmit_ret_of_filled {desc : TaskDesc} {accel : AccelIndex}
    (accepted : validateDesc desc = .ok accel) (now : UInt64) (slot : Slot) (dev : Dev) :
    (taskSubmit now slot accel (dev.modifyTask slot (fillTask desc))).1 = 0 := by
  have inRange := validateDesc_ok accepted
  have below := accel.isLt
  unfold taskSubmit
  rw [if_neg]
  simp only [Dev.modifyTask_same, fillTask]
  omega

theorem taskSubmit_freeTasks (now : UInt64) (slot : Slot) (accel : AccelIndex) (dev : Dev) :
    (taskSubmit now slot accel dev).2.freeTasks = dev.freeTasks := by
  unfold taskSubmit
  split <;> rfl

theorem taskDesc_store_length (value : Nat) (image : List UInt8)
    (whole : image.length = lp64.sizeof TaskDesc.fields) :
    (lp64.store TaskDesc.fields 0 value image).length = lp64.sizeof TaskDesc.fields := by
  have size : lp64.sizeof TaskDesc.fields = 80 := by decide
  unfold Abi.store
  rw [patch_length, whole]
  rw [leBytes_length, whole, size]
  decide

/-- The path of an accepted descriptor: a slot leaves the free list, and only
the final copy decides between success and `-EFAULT`. -/
theorem submitTask_accepted (stack : Nat → UInt8) {user : UserArg} (now : UInt64) {dev : Dev}
    {accel : AccelIndex} {slot : Slot} {rest : List Slot}
    (readable : lp64.sizeof TaskDesc.fields ≤ user.readable)
    (accepted : validateDesc user.desc = .ok accel) (free : dev.freeTasks = slot :: rest) :
    (ioctlSubmitTask stack user now dev).dev.freeTasks = rest ∧
      (ioctlSubmitTask stack user now dev).ret =
        if lp64.sizeof TaskDesc.fields ≤ user.writable then 0 else Errno.efault.ret := by
  unfold ioctlSubmitTask
  rw [copyFrom_uninitialised, if_pos readable]
  simp only [submitCopied]
  rw [user.desc_eq, accepted]
  simp only [taskAlloc, free, taskSubmit_ret_of_filled accepted, ne_eq, not_true_eq_false,
    ↓reduceIte]
  rw [reply_dev, reply_ret, taskSubmit_freeTasks,
    taskDesc_store_length _ _ (by simp)]
  exact ⟨rfl, rfl⟩

/-- Every earlier exit leaves the device as it was. -/
theorem submitTask_rejected {stack : Nat → UInt8} {user : UserArg} {now : UInt64} {dev : Dev}
    (rejected : user.readable < lp64.sizeof TaskDesc.fields ∨
      (∃ errno, validateDesc user.desc = .error errno) ∨ dev.freeTasks = []) :
    (ioctlSubmitTask stack user now dev).dev = dev := by
  unfold ioctlSubmitTask
  rw [copyFrom_uninitialised]
  by_cases readable : lp64.sizeof TaskDesc.fields ≤ user.readable
  · rw [if_pos readable]
    simp only [submitCopied]
    rw [user.desc_eq]
    rcases rejected with unreadable | ⟨errno, invalid⟩ | exhausted
    · omega
    · rw [invalid]
      rfl
    · cases validateDesc user.desc with
      | error errno => rfl
      | ok accel => simp only [taskAlloc, exhausted, leave]
  · rw [if_neg readable]
    rfl

/-- A SUBMIT that reports an error leaves the device exactly as it was. -/
def SubmitAllOrNothing (kernel : Kernel) (stack : Nat → UInt8) (user : UserArg) (now : UInt64)
    (dev : Dev) : Prop :=
  (cortexForgeIoctl kernel stack user now Command.submitTask.number dev).ret < 0 →
    (cortexForgeIoctl kernel stack user now Command.submitTask.number dev).dev = dev

theorem cortexForgeIoctl_submit (kernel : Kernel) (stack : Nat → UInt8) (user : UserArg)
    (now : UInt64) (dev : Dev) :
    cortexForgeIoctl kernel stack user now Command.submitTask.number dev =
      ioctlSubmitTask stack user now dev :=
  cortexForgeIoctl_number kernel stack user now .submitTask dev

/-- A submission is all or nothing exactly when it does not come to a final
copy that faults: the reply can be written, or the call fails before a slot is
taken. -/
theorem submitAllOrNothing_iff (kernel : Kernel) (stack : Nat → UInt8) (user : UserArg)
    (now : UInt64) (dev : Dev) :
    SubmitAllOrNothing kernel stack user now dev ↔
      lp64.sizeof TaskDesc.fields ≤ user.writable ∨
        user.readable < lp64.sizeof TaskDesc.fields ∨
        (∃ errno, validateDesc user.desc = .error errno) ∨ dev.freeTasks = [] := by
  unfold SubmitAllOrNothing
  rw [cortexForgeIoctl_submit]
  constructor
  · intro allOrNothing
    by_contra notMet
    simp only [not_or, not_exists, not_le, not_lt] at notMet
    obtain ⟨unwritable, readable, valid, nonempty⟩ := notMet
    obtain ⟨slot, rest, free⟩ := List.exists_cons_of_ne_nil nonempty
    cases accepted : validateDesc user.desc with
    | error errno => exact valid errno accepted
    | ok accel =>
        obtain ⟨freeAfter, ret⟩ :=
          submitTask_accepted stack now readable accepted free
        rw [if_neg (by omega)] at ret
        have unchanged := allOrNothing (by rw [ret]; exact Errno.ret_neg _)
        rw [unchanged, free] at freeAfter
        exact List.cons_ne_self slot rest freeAfter
  · intro met failed
    rcases met with writable | rejected
    · by_cases rejected : user.readable < lp64.sizeof TaskDesc.fields ∨
          (∃ errno, validateDesc user.desc = .error errno) ∨ dev.freeTasks = []
      · exact submitTask_rejected rejected
      · simp only [not_or, not_exists, not_lt] at rejected
        obtain ⟨readable, valid, nonempty⟩ := rejected
        obtain ⟨slot, rest, free⟩ := List.exists_cons_of_ne_nil nonempty
        cases accepted : validateDesc user.desc with
        | error errno => exact absurd accepted (valid errno)
        | ok accel =>
            obtain ⟨-, ret⟩ :=
              submitTask_accepted stack now readable accepted free
            rw [if_pos writable] at ret
            omega
    · exact submitTask_rejected rejected

/-- An all-zero descriptor in memory that can be read but not written. -/
def readOnlyDesc : UserArg := ⟨fun _ => 0, 80, 0⟩

/-- With such a buffer the freshly probed driver reports `-EFAULT` and has
queued the task all the same. -/
theorem submit_efault_keeps_task :
    ¬ SubmitAllOrNothing Kernel.hz1000 (fun _ => 0) readOnlyDesc 0 probe := by
  intro allOrNothing
  unfold SubmitAllOrNothing at allOrNothing
  rw [cortexForgeIoctl_submit] at allOrNothing
  have accepted : validateDesc readOnlyDesc.desc = .ok 0 := by decide
  obtain ⟨rest, free⟩ := probe_freeTasks_cons
  obtain ⟨freeAfter, ret⟩ := submitTask_accepted (fun _ => 0) 0 (by decide) accepted free
  have unchanged := allOrNothing (by rw [ret]; decide)
  rw [unchanged, free] at freeAfter
  exact List.cons_ne_self _ _ freeAfter

end CortexForge
