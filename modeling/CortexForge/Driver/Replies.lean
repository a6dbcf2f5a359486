import CortexForge.Driver.Chardev
import CortexForge.Driver.Compat

/-!
Contract: the replies of `cortex_forge_ioctl` as structures, and the user memory it touches.

Source: `src/chardev.c`. The handlers of `Driver.Chardev` patch byte images. Here the image a
handler copies out is read as the client reads it, and the bytes a handler looks at or writes
are compared with the size that the command number declares.

Owns: the request a user buffer holds, the structures that the replies decode to, and the
bounds on the user memory of a call.
-/

namespace CortexForge

open CortexForge.Foundation

/-! ## Requests -/

/-- The first bytes of user memory, as `copy_from_user` delivers them. -/
def UserArg.image (user : UserArg) (fields : List Scalar) : List UInt8 :=
  (List.range (lp64.sizeof fields)).map user.bytes

@[simp] theorem UserArg.image_length (user : UserArg) (fields : List Scalar) :
    (user.image fields).length = lp64.sizeof fields := by
  simp [image]

/-- The task id a QUERY asks for. -/
def UserArg.queriedId (user : UserArg) : UInt32 :=
  (TaskStatus.ofWords (lp64.decode TaskStatus.fields (user.image TaskStatus.fields))).taskId

/-- The argument of the commands that pass a bare word. -/
def UserArg.word (user : UserArg) : UInt32 := decodeWord (user.image [.word32])

/-- The request of a GET_ACCEL_INFO. -/
def UserArg.info (user : UserArg) : AccelInfo :=
  AccelInfo.ofWords (lp64.decode AccelInfo.fields (user.image AccelInfo.fields))

/-! ## What the images decode to -/

theorem length_decodeFrom (abi : Abi) (fields : List Scalar) (offset : Nat) (image : List UInt8) :
    (abi.decodeFrom offset fields image).length = fields.length := by
  induction fields generalizing offset with
  | nil => rfl
  | cons scalar fields inductionHypothesis =>
      rw [Abi.decodeFrom, List.length_cons, inductionHypothesis, List.length_cons]

theorem length_decode (abi : Abi) (fields : List Scalar) (image : List UInt8) :
    (abi.decode fields image).length = fields.length :=
  length_decodeFrom abi fields 0 image

private theorem getD_set_other {words : List Nat} {value stored read : Nat}
    (different : stored ≠ read) : (words.set stored value).getD read 0 = words.getD read 0 := by
  simp [List.getD_eq_getElem?_getD, different]

private theorem getD_set_same {words : List Nat} {value position : Nat}
    (inRange : position < words.length) : (words.set position value).getD position 0 = value := by
  simp [List.getD_eq_getElem?_getD, inRange]

/-- The store of the id into a descriptor. -/
theorem TaskDesc.ofWords_set (taskId : UInt32) {words : List Nat} (nonempty : 0 < words.length) :
    ofWords (words.set 0 taskId.toNat) = { ofWords words with taskId := taskId } := by
  simp (disch := omega) only [ofWords, getD_set_same, getD_set_other, UInt32.ofNat_toNat]

/-- The reply of a SUBMIT is the request with the id of the task. -/
theorem decode_submit_reply (user : UserArg) (taskId : UInt32) :
    TaskDesc.ofWords (lp64.decode TaskDesc.fields
      (lp64.store TaskDesc.fields 0 taskId.toNat (user.image TaskDesc.fields))) =
      { user.desc with taskId := taskId } := by
  rw [Abi.decode_store lp64_aligns (by decide) taskId.toNat_lt (user.image_length _).ge]
  exact TaskDesc.ofWords_set taskId (by rw [length_decode]; decide)

theorem fits_word32 {fields : List Scalar} {position : Nat} (inRange : position < fields.length)
    (isWord : fields.getD position .word32 = .word32) (value : UInt32) :
    lp64.Fits fields (position, value.toNat) := by
  refine ⟨inRange, ?_⟩
  rw [isWord]
  exact value.toNat_lt

theorem fits_word64 {fields : List Scalar} {position : Nat} (inRange : position < fields.length)
    (isWord : fields.getD position .word32 = .word64) (value : UInt64) :
    lp64.Fits fields (position, value.toNat) := by
  refine ⟨inRange, ?_⟩
  rw [isWord]
  exact value.toNat_lt

/-- The cleared local of a handler. -/
def clearedImage (fields : List Scalar) : List UInt8 := List.replicate (lp64.sizeof fields) 0

theorem clearedImage_length (fields : List Scalar) :
    (clearedImage fields).length = lp64.sizeof fields := by
  simp [clearedImage]

/-- Stores into an image, in order. -/
def storeAll (fields : List Scalar) (writes : List (Nat × Nat)) (image : List UInt8) :
    List UInt8 :=
  writes.foldl (fun image write => lp64.store fields write.1 write.2 image) image

/-- The stores of `storeTaskStatus`. -/
def statusWrites (status : TaskStatus) : List (Nat × Nat) :=
  [(0, status.taskId.toNat), (1, status.status.toNat), (2, status.execUsec.toNat),
    (3, status.errorCode.toUInt32.toNat)]

/-- The stores of `storeAccelInfo`. -/
def infoWrites (accel : Accel) : List (Nat × Nat) :=
  [(1, accel.freqHz.toNat), (2, accel.tempCelsius.toUInt32.toNat),
    (3, accel.loadPercent.toNat), (4, accel.fwVersion.toNat), (5, accel.hwVersion.toNat),
    (6, accel.memTotal.toNat), (7, accel.memFree.toNat), (8, accel.state.toNat)]

/-- The stores of `storeProfileMetrics`. -/
def metricsWrites (metrics : ProfileMetrics) : List (Nat × Nat) :=
  [(0, metrics.computeUs.toNat), (1, metrics.memoryUs.toNat), (2, metrics.storageUs.toNat),
    (3, metrics.networkUs.toNat), (4, metrics.thermalCelsius.toNat), (5, metrics.powerMw.toNat)]

theorem storeTaskStatus_eq (status : TaskStatus) (image : List UInt8) :
    storeTaskStatus status image = storeAll TaskStatus.fields (statusWrites status) image := rfl

theorem storeAccelInfo_eq (accel : Accel) (image : List UInt8) :
    storeAccelInfo accel image = storeAll AccelInfo.fields (infoWrites accel) image := rfl

theorem storeProfileMetrics_eq (metrics : ProfileMetrics) (image : List UInt8) :
    storeProfileMetrics metrics image =
      storeAll ProfileMetrics.fields (metricsWrites metrics) image := rfl

theorem statusWrites_fit (status : TaskStatus) :
    ∀ write ∈ statusWrites status, lp64.Fits TaskStatus.fields write := by
  simp only [statusWrites, List.forall_mem_cons, List.not_mem_nil, false_implies, implies_true,
    and_true]
  exact ⟨fits_word32 (by decide) rfl _, fits_word32 (by decide) rfl _,
    fits_word64 (by decide) rfl _, fits_word32 (by decide) rfl _⟩

theorem infoWrites_fit (accel : Accel) :
    ∀ write ∈ infoWrites accel, lp64.Fits AccelInfo.fields write := by
  simp only [infoWrites, List.forall_mem_cons, List.not_mem_nil, false_implies, implies_true,
    and_true]
  exact ⟨fits_word32 (by decide) rfl _, fits_word32 (by decide) rfl _,
    fits_word32 (by decide) rfl _, fits_word32 (by decide) rfl _, fits_word32 (by decide) rfl _,
    fits_word64 (by decide) rfl _, fits_word64 (by decide) rfl _, fits_word32 (by decide) rfl _⟩

theorem metricsWrites_fit (metrics : ProfileMetrics) :
    ∀ write ∈ metricsWrites metrics, lp64.Fits ProfileMetrics.fields write := by
  simp only [metricsWrites, List.forall_mem_cons, List.not_mem_nil, false_implies, implies_true,
    and_true]
  exact ⟨fits_word64 (by decide) rfl _, fits_word64 (by decide) rfl _,
    fits_word64 (by decide) rfl _, fits_word64 (by decide) rfl _,
    fits_word32 (by decide) rfl _, fits_word32 (by decide) rfl _⟩

section Stores

variable {fields : List Scalar} {writes : List (Nat × Nat)} {image : List UInt8}

theorem decode_storeAll (fit : ∀ write ∈ writes, lp64.Fits fields write)
    (whole : image.length = lp64.sizeof fields) :
    lp64.decode fields (storeAll fields writes image) =
      writes.foldl (fun words write => words.set write.1 write.2) (lp64.decode fields image) :=
  (Abi.decode_stores lp64_aligns writes fit whole.ge).1

theorem storeAll_length (fit : ∀ write ∈ writes, lp64.Fits fields write)
    (whole : image.length = lp64.sizeof fields) :
    (storeAll fields writes image).length = lp64.sizeof fields :=
  (Abi.decode_stores lp64_aligns writes fit whole.ge).2.trans whole

end Stores

/-- The reply of a QUERY is the status that `task_query` has filled. -/
theorem decode_query_reply {status : TaskStatus} (cleared : status.reserved = fun _ => 0) :
    TaskStatus.ofWords (lp64.decode TaskStatus.fields
      (storeTaskStatus status (clearedImage TaskStatus.fields))) = status := by
  have zeros : lp64.decode TaskStatus.fields (clearedImage TaskStatus.fields) =
      List.replicate 7 0 := by decide
  rw [storeTaskStatus_eq, decode_storeAll (statusWrites_fit status) (clearedImage_length _), zeros]
  have words := TaskStatus.ofWords_toWords status
  rw [TaskStatus.toWords, cleared] at words
  exact words

/-- The reply of a GET_ACCEL_INFO is `accel_get_info` of the request. -/
theorem decode_accelInfo_reply (user : UserArg) (accel : Accel) :
    AccelInfo.ofWords (lp64.decode AccelInfo.fields
      (storeAccelInfo accel (user.image AccelInfo.fields))) = accelGetInfo accel user.info := by
  have size : (lp64.decode AccelInfo.fields (user.image AccelInfo.fields)).length = 12 :=
    length_decode _ _ _
  rw [storeAccelInfo_eq, decode_storeAll (infoWrites_fit accel) (user.image_length _)]
  simp (disch := first | omega | (simp only [List.length_set]; omega)) only [infoWrites,
    List.foldl_cons, List.foldl_nil, AccelInfo.ofWords, getD_set_same, getD_set_other,
    accelGetInfo, UserArg.info, UInt32.ofNat_toNat, UInt64.ofNat_toNat, Int32.toInt32_toUInt32]

/-! ## The handlers on requests -/

section Handlers

variable (kernel : Kernel) (stack : Nat → UInt8) (user : UserArg) (now : UInt64) (dev : Dev)

theorem copyFrom_image (fields : List Scalar) :
    user.copyFrom (uninitialised stack (lp64.sizeof fields)) =
      if lp64.sizeof fields ≤ user.readable then some (user.image fields) else none :=
  copyFrom_uninitialised user stack (lp64.sizeof fields)

theorem ioctlSubmitTask_eq :
    ioctlSubmitTask stack user now dev =
      if lp64.sizeof TaskDesc.fields ≤ user.readable then
        submitCopied user now (user.image TaskDesc.fields) dev
      else leave Errno.efault.ret dev := by
  rw [ioctlSubmitTask, copyFrom_image]
  by_cases readable : lp64.sizeof TaskDesc.fields ≤ user.readable
  · rw [if_pos readable, if_pos readable]
  · rw [if_neg readable, if_neg readable]

theorem ioctlQueryTask_eq :
    ioctlQueryTask kernel stack user dev =
      if lp64.sizeof TaskStatus.fields ≤ user.readable then
        match taskQuery kernel dev user.queriedId with
        | none => leave Errno.enoent.ret dev
        | some status =>
            reply user dev (storeTaskStatus status (clearedImage TaskStatus.fields))
      else leave Errno.efault.ret dev := by
  rw [ioctlQueryTask, copyFrom_image]
  simp only [memsetZero_uninitialised]
  by_cases readable : lp64.sizeof TaskStatus.fields ≤ user.readable
  · rw [if_pos readable, if_pos readable]
    rfl
  · rw [if_neg readable, if_neg readable]

theorem ioctlCancelTask_eq :
    ioctlCancelTask stack user dev =
      if lp64.sizeof [.word32] ≤ user.readable then
        leave (taskCancel dev user.word).1 (taskCancel dev user.word).2
      else leave Errno.efault.ret dev := by
  rw [ioctlCancelTask, copyFrom_image]
  by_cases readable : lp64.sizeof [.word32] ≤ user.readable
  · rw [if_pos readable, if_pos readable]
    rfl
  · rw [if_neg readable, if_neg readable]

theorem ioctlGetAccelInfo_eq :
    ioctlGetAccelInfo stack user dev =
      if lp64.sizeof AccelInfo.fields ≤ user.readable then
        if inRange : user.info.accelType.toNat < numAccelerators then
          reply user dev (storeAccelInfo
            (dev.accelerators ⟨user.info.accelType.toNat, inRange⟩) (user.image AccelInfo.fields))
        else leave Errno.einval.ret dev
      else leave Errno.efault.ret dev := by
  rw [ioctlGetAccelInfo, copyFrom_image]
  by_cases readable : lp64.sizeof AccelInfo.fields ≤ user.readable
  · rw [if_pos readable, if_pos readable]
    rfl
  · rw [if_neg readable, if_neg readable]

theorem ioctlCheckWord_eq (bound : UInt32) :
    ioctlCheckWord bound stack user dev =
      if lp64.sizeof [.word32] ≤ user.readable then
        if bound < user.word then leave Errno.einval.ret dev else leave 0 dev
      else leave Errno.efault.ret dev := by
  rw [ioctlCheckWord, copyFrom_image]
  by_cases readable : lp64.sizeof [.word32] ≤ user.readable
  · rw [if_pos readable, if_pos readable]
    rfl
  · rw [if_neg readable, if_neg readable]

end Handlers

/-! ## The user memory of a call -/

/-- `_IOC_SIZE`: the size of the argument that a command number declares. -/
def iocSize (cmd : UInt32) : Nat := cmd.toNat / 2 ^ 16 % 2 ^ 14

/-- Two user buffers that nobody who stays within the first `size` bytes can tell apart. -/
structure SameWithin (size : Nat) (user other : UserArg) : Prop where
  bytes : ∀ index < size, user.bytes index = other.bytes index
  readable : min size user.readable = min size other.readable
  writable : min size user.writable = min size other.writable

section Within

variable {size : Nat} {user other : UserArg}

theorem SameWithin.image (same : SameWithin size user other) {fields : List Scalar}
    (within : lp64.sizeof fields ≤ size) : user.image fields = other.image fields := by
  refine List.map_congr_left fun index member => same.bytes index ?_
  rw [List.mem_range] at member
  omega

theorem SameWithin.readable_iff (same : SameWithin size user other) {fields : List Scalar}
    (within : lp64.sizeof fields ≤ size) :
    lp64.sizeof fields ≤ user.readable ↔ lp64.sizeof fields ≤ other.readable := by
  have readable := same.readable
  omega

theorem SameWithin.reply (same : SameWithin size user other) (dev : Dev) {image : List UInt8}
    (within : image.length ≤ size) : reply user dev image = reply other dev image := by
  have writable := same.writable
  have fits : image.length ≤ user.writable ↔ image.length ≤ other.writable := by omega
  have copied : image.take user.writable = image.take other.writable := by
    by_cases whole : image.length ≤ user.writable
    · rw [List.take_of_length_le whole, List.take_of_length_le (fits.mp whole)]
    · rw [show user.writable = other.writable by omega]
  unfold CortexForge.reply UserArg.copyTo
  rw [copied, decide_eq_decide.mpr fits]

end Within

/-- What a call can tell of its user memory, and what it writes there, lies within `size`
bytes. -/
def StaysWithin (size : Nat) (call : UserArg → IoctlResult) : Prop :=
  (∀ user other, SameWithin size user other → call user = call other) ∧
    ∀ user, (call user).copied.length ≤ size

theorem reply_copied_length (user : UserArg) (dev : Dev) (image : List UInt8) :
    (reply user dev image).copied.length ≤ image.length := by
  rw [reply_copied, List.length_take]
  omega

/-- A call that first copies a structure in stays within it if what it does with the image
does. -/
theorem staysWithin_of_copied {fields : List Scalar} {dev : Dev}
    {proceed : UserArg → IoctlResult}
    (sameResult : ∀ user other, SameWithin (lp64.sizeof fields) user other →
      proceed user = proceed other)
    (short : ∀ user, (proceed user).copied.length ≤ lp64.sizeof fields) :
    StaysWithin (lp64.sizeof fields) fun user =>
      if lp64.sizeof fields ≤ user.readable then proceed user
      else leave Errno.efault.ret dev := by
  constructor
  · intro user other same
    simp only [same.readable_iff le_rfl, sameResult user other same]
  · intro user
    dsimp only
    split
    · exact short user
    · exact Nat.zero_le _

section Within

variable (kernel : Kernel) (stack : Nat → UInt8) (now : UInt64) (dev : Dev)

theorem submitCopied_congr {user other : UserArg}
    (same : SameWithin (lp64.sizeof TaskDesc.fields) user other) :
    submitCopied user now (user.image TaskDesc.fields) dev =
      submitCopied other now (other.image TaskDesc.fields) dev := by
  rw [same.image le_rfl]
  simp only [submitCopied]
  cases validateDesc (TaskDesc.ofWords
    (lp64.decode TaskDesc.fields (other.image TaskDesc.fields))) with
  | error errno => rfl
  | ok accel =>
      cases taskAlloc dev with
      | none => rfl
      | some allocated =>
          dsimp only
          split
          · rfl
          · exact same.reply _ (taskDesc_store_length _ _ (other.image_length _)).le

theorem submitCopied_copied_length (user : UserArg) :
    (submitCopied user now (user.image TaskDesc.fields) dev).copied.length ≤
      lp64.sizeof TaskDesc.fields := by
  simp only [submitCopied]
  split
  · exact Nat.zero_le _
  · split
    · exact Nat.zero_le _
    · split
      · exact Nat.zero_le _
      · exact (reply_copied_length _ _ _).trans
          (taskDesc_store_length _ _ (user.image_length _)).le

theorem submitTask_within :
    StaysWithin (lp64.sizeof TaskDesc.fields) fun user => ioctlSubmitTask stack user now dev := by
  simp only [ioctlSubmitTask_eq]
  exact staysWithin_of_copied (fun _ _ same => submitCopied_congr now dev same)
    (submitCopied_copied_length now dev)

theorem queryTask_within :
    StaysWithin (lp64.sizeof TaskStatus.fields) fun user =>
      ioctlQueryTask kernel stack user dev := by
  have size (status : TaskStatus) :=
    storeAll_length (statusWrites_fit status) (clearedImage_length TaskStatus.fields)
  simp only [ioctlQueryTask_eq]
  refine staysWithin_of_copied (fun user other same => ?_) fun user => ?_
  · rw [UserArg.queriedId, same.image le_rfl, ← UserArg.queriedId]
    cases taskQuery kernel dev other.queriedId with
    | none => rfl
    | some status => exact same.reply dev (size status).le
  · split
    · exact Nat.zero_le _
    · exact (reply_copied_length _ _ _).trans (size _).le

theorem cancelTask_within :
    StaysWithin (lp64.sizeof [.word32]) fun user => ioctlCancelTask stack user dev := by
  simp only [ioctlCancelTask_eq]
  refine staysWithin_of_copied (fun user other same => ?_) fun user => Nat.zero_le _
  rw [UserArg.word, same.image le_rfl, ← UserArg.word]

theorem getAccelInfo_within :
    StaysWithin (lp64.sizeof AccelInfo.fields) fun user => ioctlGetAccelInfo stack user dev := by
  have size (user : UserArg) (accel : Accel) :=
    storeAll_length (infoWrites_fit accel) (user.image_length AccelInfo.fields)
  simp only [ioctlGetAccelInfo_eq]
  refine staysWithin_of_copied (fun user other same => ?_) fun user => ?_
  · have sameInfo : user.info = other.info := by
      rw [UserArg.info, same.image le_rfl, ← UserArg.info]
    simp only [sameInfo, same.image le_rfl]
    split
    · exact same.reply dev (size other _).le
    · rfl
  · split
    · exact (reply_copied_length _ _ _).trans (size user _).le
    · exact Nat.zero_le _

theorem checkWord_within (bound : UInt32) :
    StaysWithin (lp64.sizeof [.word32]) fun user => ioctlCheckWord bound stack user dev := by
  simp only [ioctlCheckWord_eq]
  refine staysWithin_of_copied (fun user other same => ?_) fun user => ?_
  · rw [UserArg.word, same.image le_rfl, ← UserArg.word]
  · split <;> exact Nat.zero_le _

/-- A handler that only replies. -/
theorem reply_within {size : Nat} {image : List UInt8} (length : image.length = size) :
    StaysWithin size fun user => reply user dev image :=
  ⟨fun _ _ same => same.reply dev length.le,
    fun user => (reply_copied_length user dev image).trans length.le⟩

theorem getVersion_within :
    StaysWithin (lp64.sizeof [.word32]) fun user => ioctlGetVersion stack user dev := by
  simp only [ioctlGetVersion, store_word_uninitialised]
  exact reply_within dev ((leBytes_length _ _).trans (by decide))

theorem getProfile_within :
    StaysWithin (lp64.sizeof ProfileMetrics.fields) fun user =>
      ioctlGetProfile stack user dev := by
  simp only [ioctlGetProfile, memsetZero_uninitialised, storeProfileMetrics_eq]
  exact reply_within dev (storeAll_length (metricsWrites_fit profileMetrics)
    (clearedImage_length ProfileMetrics.fields))

end Within

/-- No call of `cortex_forge_ioctl` touches user memory beyond the size that its command number
declares: two buffers that agree up to there, in their bytes and in where they can be read
and written, give the same result, and no more bytes than that are copied out. -/
theorem ioctl_stays_within_declared_size (kernel : Kernel) (stack : Nat → UInt8) (now : UInt64)
    (cmd : UInt32) (dev : Dev) :
    StaysWithin (iocSize cmd) fun user => cortexForgeIoctl kernel stack user now cmd dev := by
  cases known : Command.ofNumber cmd with
  | none =>
      simp only [cortexForgeIoctl, known]
      exact ⟨fun _ _ _ => rfl, fun _ => Nat.zero_le _⟩
  | some command =>
      have number : command.number = cmd := by simpa using List.find?_some known
      subst number
      simp only [cortexForgeIoctl, known]
      cases command with
      | submitTask => exact submitTask_within stack now dev
      | queryTask => exact queryTask_within kernel stack dev
      | cancelTask => exact cancelTask_within stack dev
      | getAccelInfo => exact getAccelInfo_within stack dev
      | setPower => exact checkWord_within stack dev 2
      | getVersion => exact getVersion_within stack dev
      | getProfile => exact getProfile_within stack dev
      | setAccel => exact checkWord_within stack dev 4

end CortexForge
