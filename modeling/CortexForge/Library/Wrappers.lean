import CortexForge.Driver.Chardev

/-!
Contract: the user-space library against the driver it calls.

Sources: `lib/src/libcortex-forge.c` and `lib/include/libcortex-forge.h`. The
library defines the structures and the command numbers a second time, without the
`reserved` words of the UAPI header. The fields it names keep their offsets, but
the sizes differ, and the size is part of a command number.

Owns: the library's structures, its command numbers and wrappers, what agreement
with the driver means for one call, and which calls agree.

Does not own: `cortex_forge_open`, `cortex_forge_close` and
`cortex_forge_strerror`, which pass nothing to the driver's ioctl.
-/

namespace CortexForge.Library

open CortexForge.Foundation

/-! ## Structures -/

/-- `struct cortex_forge_task_desc` of the library; the two addresses are
pointers. -/
structure TaskDesc where
  taskId : UInt32
  accelType : UInt32
  priority : UInt32
  inputSize : UInt32
  outputSize : UInt32
  inputAddr : UInt64
  outputAddr : UInt64
  timeoutMs : UInt32
  flags : UInt32

/-- `struct cortex_forge_task_status` of the library. -/
structure TaskStatus where
  taskId : UInt32
  status : UInt32
  execUsec : UInt64
  errorCode : Int32

/-- `struct cortex_forge_accel_info` of the library. -/
structure AccelInfo where
  accelType : UInt32
  freqHz : UInt32
  tempCelsius : Int32
  loadPercent : UInt32
  fwVersion : UInt32
  hwVersion : UInt32
  memTotal : UInt64
  memFree : UInt64
  state : UInt32

def TaskDesc.fields : List Scalar :=
  [.word32, .word32, .word32, .word32, .word32, .pointer, .pointer, .word32, .word32]

def TaskStatus.fields : List Scalar := [.word32, .word32, .word64, .word32]

def AccelInfo.fields : List Scalar :=
  [.word32, .word32, .word32, .word32, .word32, .word32, .word64, .word64, .word32]

/-! ## Command numbers -/

/-- `CORTEX_FORGE_MAGIC` of the library. -/
def magic : Nat := 0xCF

/-- `CORTEX_FORGE_IOCTL_SUBMIT_TASK` of the library; the others follow. -/
def submitTaskNumber : UInt32 := ioc .readWrite magic 1 (lp64.sizeof TaskDesc.fields)

def queryTaskNumber : UInt32 := ioc .readWrite magic 2 (lp64.sizeof TaskStatus.fields)

def cancelTaskNumber : UInt32 := ioc .write magic 3 (lp64.sizeof [.word32])

def getAccelInfoNumber : UInt32 := ioc .read magic 4 (lp64.sizeof AccelInfo.fields)

def setPowerNumber : UInt32 := ioc .write magic 5 (lp64.sizeof [.word32])

def getVersionNumber : UInt32 := ioc .read magic 6 (lp64.sizeof [.word32])

/-! ## Wrappers -/

/-- An open `struct cortex_forge_handle`. -/
structure Handle where
  fd : Int

/-- What a library call returns, the device it leaves, and the bytes the driver
wrote over the caller's argument. -/
structure Outcome where
  ret : Int
  dev : Dev
  copied : List UInt8

/-- `ioctl` followed by `r < 0 ? -errno : 0`. -/
def Outcome.ofIoctl (result : IoctlResult) : Outcome :=
  ⟨if result.ret < 0 then result.ret else 0, result.dev, result.copied⟩

section Wrappers

variable (kernel : Kernel) (stack : Nat → UInt8) (now : UInt64) (handle : Option Handle)

/-- The body shared by the wrappers: `-EINVAL` for a null handle or argument,
else the ioctl under the handle's mutex. -/
def wrapper (number : UInt32) (argument : Option UserArg) (dev : Dev) : Outcome :=
  match handle, argument with
  | some _, some user => .ofIoctl (cortexForgeIoctl kernel stack user now number dev)
  | _, _ => ⟨Errno.einval.ret, dev, []⟩

def cortexForgeSubmitTask (desc : Option UserArg) (dev : Dev) : Outcome :=
  wrapper kernel stack now handle submitTaskNumber desc dev

def cortexForgeQueryTask (status : Option UserArg) (dev : Dev) : Outcome :=
  wrapper kernel stack now handle queryTaskNumber status dev

/-- The argument is the address of the function's own parameter. -/
def cortexForgeCancelTask (parameter : UserArg) (dev : Dev) : Outcome :=
  wrapper kernel stack now handle cancelTaskNumber (some parameter) dev

def cortexForgeGetAccelInfo (info : Option UserArg) (dev : Dev) : Outcome :=
  wrapper kernel stack now handle getAccelInfoNumber info dev

/-- The argument is the address of the function's own parameter. -/
def cortexForgeSetPower (parameter : UserArg) (dev : Dev) : Outcome :=
  wrapper kernel stack now handle setPowerNumber (some parameter) dev

def cortexForgeGetVersion (version : Option UserArg) (dev : Dev) : Outcome :=
  wrapper kernel stack now handle getVersionNumber version dev

end Wrappers

/-! ## Calls -/

/-- The library calls that reach the driver, with the argument as the caller has
filled it. -/
inductive Call where
  | submitTask (desc : TaskDesc)
  | queryTask (status : TaskStatus)
  | cancelTask (taskId : UInt32)
  | getAccelInfo (info : AccelInfo)
  | setPower (mode : UInt32)
  | getVersion (version : UInt32)

namespace Call

/-- The scalars of the argument's structure. -/
def fields : Call → List Scalar
  | .submitTask _ => TaskDesc.fields
  | .queryTask _ => TaskStatus.fields
  | .getAccelInfo _ => AccelInfo.fields
  | .cancelTask _ | .setPower _ | .getVersion _ => [.word32]

/-- The values of the argument's fields. -/
def words : Call → List Nat
  | .submitTask desc =>
      [desc.taskId.toNat, desc.accelType.toNat, desc.priority.toNat, desc.inputSize.toNat,
        desc.outputSize.toNat, desc.inputAddr.toNat, desc.outputAddr.toNat,
        desc.timeoutMs.toNat, desc.flags.toNat]
  | .queryTask status =>
      [status.taskId.toNat, status.status.toNat, status.execUsec.toNat,
        status.errorCode.toUInt32.toNat]
  | .getAccelInfo info =>
      [info.accelType.toNat, info.freqHz.toNat, info.tempCelsius.toUInt32.toNat,
        info.loadPercent.toNat, info.fwVersion.toNat, info.hwVersion.toNat,
        info.memTotal.toNat, info.memFree.toNat, info.state.toNat]
  | .cancelTask word | .setPower word | .getVersion word => [word.toNat]

/-- The driver operation a call is meant for. -/
def command : Call → Command
  | .submitTask _ => .submitTask
  | .queryTask _ => .queryTask
  | .cancelTask _ => .cancelTask
  | .getAccelInfo _ => .getAccelInfo
  | .setPower _ => .setPower
  | .getVersion _ => .getVersion

/-- The number a call passes to `ioctl`. -/
def number : Call → UInt32
  | .submitTask _ => submitTaskNumber
  | .queryTask _ => queryTaskNumber
  | .cancelTask _ => cancelTaskNumber
  | .getAccelInfo _ => getAccelInfoNumber
  | .setPower _ => setPowerNumber
  | .getVersion _ => getVersionNumber

/-- The call, made through an open handle with its argument at `user`. -/
def perform (kernel : Kernel) (stack : Nat → UInt8) (now : UInt64) (handle : Handle)
    (user : UserArg) (dev : Dev) : Call → Outcome
  | .submitTask _ => cortexForgeSubmitTask kernel stack now (some handle) (some user) dev
  | .queryTask _ => cortexForgeQueryTask kernel stack now (some handle) (some user) dev
  | .cancelTask _ => cortexForgeCancelTask kernel stack now (some handle) user dev
  | .getAccelInfo _ => cortexForgeGetAccelInfo kernel stack now (some handle) (some user) dev
  | .setPower _ => cortexForgeSetPower kernel stack now (some handle) user dev
  | .getVersion _ => cortexForgeGetVersion kernel stack now (some handle) (some user) dev

end Call

/-- The driver's structure behind a command. -/
def argumentFields : Command → List Scalar
  | .submitTask => CortexForge.TaskDesc.fields
  | .queryTask => CortexForge.TaskStatus.fields
  | .getAccelInfo => CortexForge.AccelInfo.fields
  | .getProfile => CortexForge.ProfileMetrics.fields
  | .cancelTask | .setPower | .getVersion | .setAccel => [.word32]

/-! ## Agreement -/

/-- The first bytes of user memory. -/
def readBytes (user : UserArg) (size : Nat) : List UInt8 := (List.range size).map user.bytes

/-- The caller's structure lies at the argument, laid out over memory with any
previous contents. -/
structure Presents (user : UserArg) (call : Call) : Prop where
  readable : lp64.sizeof call.fields ≤ user.readable
  writable : lp64.sizeof call.fields ≤ user.writable
  bytes : ∃ before : List UInt8, before.length = lp64.sizeof call.fields ∧
    readBytes user (lp64.sizeof call.fields) = lp64.encode call.fields call.words before

/-- The library and the driver agree on a call: its number selects the handler of
the same operation; the driver decodes every named field as stored; the reply
stays within the caller's structure and decodes there to the fields the handler
copied; and the call does what the handler does. -/
structure Agreement (call : Call) : Prop where
  dispatch : Command.ofNumber call.number = some call.command
  decode : ∀ user, Presents user call →
    (lp64.decode (argumentFields call.command)
      (readBytes user (lp64.sizeof (argumentFields call.command)))).take call.words.length =
        call.words
  within : ∀ kernel stack user now dev, Presents user call →
    (cortexForgeIoctl kernel stack user now call.number dev).copied.length ≤
      lp64.sizeof call.fields
  reply : ∀ kernel stack user now dev, Presents user call →
    (cortexForgeIoctl kernel stack user now call.number dev).copied ≠ [] →
    lp64.decode call.fields
        (patch 0 (cortexForgeIoctl kernel stack user now call.number dev).copied
          (readBytes user (lp64.sizeof call.fields))) =
      (lp64.decode (argumentFields call.command)
        (cortexForgeIoctl kernel stack user now call.number dev).copied).take
          call.fields.length
  behaves : ∀ kernel stack user now handle dev, Presents user call →
    call.perform kernel stack now handle user dev =
      .ofIoctl (cortexForgeIoctl kernel stack user now call.command.number dev)

/-! ## Where the two sides agree -/

/-- Every call issues its ioctl under its own number. -/
theorem Call.perform_eq (call : Call) (kernel : Kernel) (stack : Nat → UInt8) (now : UInt64)
    (handle : Handle) (user : UserArg) (dev : Dev) :
    call.perform kernel stack now handle user dev =
      .ofIoctl (cortexForgeIoctl kernel stack user now call.number dev) := by
  cases call <;> rfl

/-- The argument of a call is a bare `u32`, and the driver knows its number. -/
structure OneWord (call : Call) (word : UInt32) : Prop where
  fields : call.fields = [.word32]
  words : call.words = [word.toNat]
  argument : argumentFields call.command = [.word32]
  number : call.number = call.command.number

/-- What such a call stores is what the driver loads. -/
theorem OneWord.decode {call : Call} {word : UInt32} (oneWord : OneWord call word)
    {user : UserArg} (presents : Presents user call) :
    lp64.decode [.word32] (readBytes user (lp64.sizeof [.word32])) = [word.toNat] := by
  obtain ⟨before, sameLength, bytes⟩ := presents.bytes
  rw [oneWord.fields] at sameLength bytes
  rw [bytes, oneWord.words]
  refine Abi.decode_encode lp64_aligns (.cons ?_ .nil) sameLength.ge
  exact word.toNat_lt

/-- Such a call agrees as soon as the driver copies back nothing or one word. -/
theorem OneWord.agreement {call : Call} {word : UInt32} (oneWord : OneWord call word)
    (copies : ∀ kernel stack user now dev, Presents user call →
      (cortexForgeIoctl kernel stack user now call.number dev).copied = [] ∨
        (cortexForgeIoctl kernel stack user now call.number dev).copied.length =
          lp64.sizeof [.word32]) : Agreement call where
  dispatch := by
    rw [oneWord.number]
    exact Command.ofNumber_number _
  decode := fun user presents => by
    rw [oneWord.argument, oneWord.decode presents, oneWord.words]
    rfl
  within := fun kernel stack user now dev presents => by
    rw [oneWord.fields]
    rcases copies kernel stack user now dev presents with nothing | word
    · rw [nothing]
      exact Nat.zero_le _
    · exact word.le
  reply := fun kernel stack user now dev presents replied => by
    have length := (copies kernel stack user now dev presents).resolve_left replied
    rw [oneWord.fields, oneWord.argument,
      patch_zero_of_length_eq (by simp [readBytes, length])]
    rfl
  behaves := fun kernel stack user now handle dev _ => by
    rw [call.perform_eq, oneWord.number]

theorem agreement_cancelTask (taskId : UInt32) : Agreement (.cancelTask taskId) := by
  have oneWord : OneWord (.cancelTask taskId) taskId := ⟨rfl, rfl, rfl, rfl⟩
  refine oneWord.agreement ?_
  intro kernel stack user now dev _
  rw [oneWord.number, cortexForgeIoctl_number]
  refine Or.inl ?_
  show (ioctlCancelTask stack user dev).copied = []
  unfold ioctlCancelTask
  split <;> rfl

theorem agreement_setPower (mode : UInt32) : Agreement (.setPower mode) := by
  have oneWord : OneWord (.setPower mode) mode := ⟨rfl, rfl, rfl, rfl⟩
  refine oneWord.agreement ?_
  intro kernel stack user now dev _
  rw [oneWord.number, cortexForgeIoctl_number]
  refine Or.inl ?_
  show (ioctlCheckWord 2 stack user dev).copied = []
  unfold ioctlCheckWord
  split
  · rfl
  · split <;> rfl

theorem agreement_getVersion (version : UInt32) : Agreement (.getVersion version) := by
  have oneWord : OneWord (.getVersion version) version := ⟨rfl, rfl, rfl, rfl⟩
  refine oneWord.agreement ?_
  intro kernel stack user now dev presents
  rw [oneWord.number, cortexForgeIoctl_number]
  refine Or.inr ?_
  have size : lp64.sizeof [.word32] = 4 := by decide
  have room : lp64.sizeof [.word32] ≤ user.writable := presents.writable
  show (ioctlGetVersion stack user dev).copied.length = _
  rw [ioctlGetVersion, store_word_uninitialised, reply_copied, List.length_take,
    leBytes_length]
  omega

/-- The three structured calls issue numbers that the driver does not know. -/
theorem Call.ofNumber_structured (call : Call)
    (structured : call.command = .submitTask ∨ call.command = .queryTask ∨
      call.command = .getAccelInfo) : Command.ofNumber call.number = none := by
  have submit : Command.ofNumber submitTaskNumber = none := by decide
  have query : Command.ofNumber queryTaskNumber = none := by decide
  have accelInfo : Command.ofNumber getAccelInfoNumber = none := by decide
  cases call <;> simp_all [Call.command, Call.number]

/-- The library and the driver agree exactly on the calls whose argument is a
bare `u32`. -/
theorem agreement_iff (call : Call) :
    Agreement call ↔
      call.command = .cancelTask ∨ call.command = .setPower ∨ call.command = .getVersion := by
  constructor
  · intro agreement
    by_contra other
    have structured : call.command = .submitTask ∨ call.command = .queryTask ∨
        call.command = .getAccelInfo := by
      cases call <;> simp_all [Call.command]
    have dispatch := agreement.dispatch
    rw [call.ofNumber_structured structured] at dispatch
    cases dispatch
  · intro bare
    cases call with
    | cancelTask taskId => exact agreement_cancelTask taskId
    | setPower mode => exact agreement_setPower mode
    | getVersion version => exact agreement_getVersion version
    | submitTask desc => simp [Call.command] at bare
    | queryTask status => simp [Call.command] at bare
    | getAccelInfo info => simp [Call.command] at bare

/-- The library's SUBMIT of a plain request never reaches the driver's handler. -/
theorem submitTask_disagrees :
    ¬ Agreement (.submitTask ⟨0, 0, 0, 0, 0, 0, 0, 0, 0⟩) := by
  intro agreement
  have dispatch := agreement.dispatch
  rw [Call.ofNumber_structured _ (Or.inl rfl)] at dispatch
  cases dispatch

end CortexForge.Library
