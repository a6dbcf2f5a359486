import Mathlib.Data.List.OfFn
import CortexForge.Driver.Uapi

/-!
Contract: the UAPI structures between a 32-bit client and the 64-bit kernel.

The header promises fixed-width types and explicit padding for 32/64-bit
compatibility. The widths are fixed; the padding is not explicit where a 64-bit
field follows an odd number of 32-bit ones, and there the offset depends on the
alignment the client's ABI gives to 64-bit words.

Owns: the two 32-bit ABIs, what it takes for a value to survive the way into the
kernel, and which structures survive it.

Does not own: the library's own declarations (`Library.Wrappers`).
-/

namespace CortexForge

open CortexForge.Foundation

/-! ## Clients and structures -/

/-- The 32-bit client ABIs. -/
inductive ClientAbi where
  | i386
  | armEabi
deriving DecidableEq, Repr

/-- i386 aligns 64-bit words to four bytes, ARM EABI to eight. -/
def ClientAbi.abi : ClientAbi → Abi
  | .i386 => ⟨4, fun size => min size 4⟩
  | .armEabi => ⟨4, id⟩

/-- The structures of the UAPI header. -/
inductive UapiStruct where
  | taskDesc
  | taskStatus
  | accelInfo
  | profileMetrics
deriving DecidableEq, Repr

namespace UapiStruct

def Value : UapiStruct → Type
  | .taskDesc => TaskDesc
  | .taskStatus => TaskStatus
  | .accelInfo => AccelInfo
  | .profileMetrics => ProfileMetrics

def fields : UapiStruct → List Scalar
  | .taskDesc => TaskDesc.fields
  | .taskStatus => TaskStatus.fields
  | .accelInfo => AccelInfo.fields
  | .profileMetrics => ProfileMetrics.fields

def toWords : (struct : UapiStruct) → struct.Value → List Nat
  | .taskDesc => TaskDesc.toWords
  | .taskStatus => TaskStatus.toWords
  | .accelInfo => AccelInfo.toWords
  | .profileMetrics => ProfileMetrics.toWords

def ofWords : (struct : UapiStruct) → List Nat → struct.Value
  | .taskDesc => TaskDesc.ofWords
  | .taskStatus => TaskStatus.ofWords
  | .accelInfo => AccelInfo.ofWords
  | .profileMetrics => ProfileMetrics.ofWords

/-- The command that carries a structure. -/
def command : UapiStruct → Command
  | .taskDesc => .submitTask
  | .taskStatus => .queryTask
  | .accelInfo => .getAccelInfo
  | .profileMetrics => .getProfile

/-- The number of that command as the header's macros give it on a platform. -/
def number (abi : Abi) : UapiStruct → UInt32
  | .taskDesc => ioc .readWrite magic 1 (abi.sizeof TaskDesc.fields)
  | .taskStatus => ioc .readWrite magic 2 (abi.sizeof TaskStatus.fields)
  | .accelInfo => ioc .read magic 4 (abi.sizeof AccelInfo.fields)
  | .profileMetrics => ioc .read magic 7 (abi.sizeof ProfileMetrics.fields)

theorem number_lp64 (struct : UapiStruct) : struct.number lp64 = struct.command.number := by
  cases struct <;> rfl

end UapiStruct

/-- A value survives the way from a client into the kernel: the structure has the
same size on both sides, the command the same number, and the image the client lays
out, over whatever its memory held, decodes to the value. -/
structure Survives (struct : UapiStruct) (client : ClientAbi) (value : struct.Value) : Prop where
  size : client.abi.sizeof struct.fields = lp64.sizeof struct.fields
  number : struct.number client.abi = struct.command.number
  decode : ∀ memory : List UInt8, lp64.sizeof struct.fields ≤ memory.length →
    struct.ofWords (lp64.decode struct.fields
      (client.abi.encode struct.fields (struct.toWords value) memory)) = value

/-! ## Words and values -/

/-- The words behind the named fields are those of the reserved array. -/
private theorem getD_reserved {count : Nat} (named : List Nat) (reserved : Fin count → Nat)
    (index : Fin count) :
    (named ++ List.ofFn reserved).getD (named.length + index) 0 = reserved index := by
  simp [List.getD_eq_getElem?_getD]

theorem TaskDesc.ofWords_toWords (desc : TaskDesc) : ofWords desc.toWords = desc := by
  have tail (index : Fin 4) : desc.toWords.getD (9 + index) 0 = (desc.reserved index).toNat :=
    getD_reserved _ _ index
  simp only [ofWords, tail]
  simp [toWords]

theorem TaskStatus.ofWords_toWords (status : TaskStatus) : ofWords status.toWords = status := by
  have tail (index : Fin 3) :
      status.toWords.getD (4 + index) 0 = (status.reserved index).toNat :=
    getD_reserved _ _ index
  simp only [ofWords, tail]
  simp [toWords]

theorem AccelInfo.ofWords_toWords (info : AccelInfo) : ofWords info.toWords = info := by
  have tail (index : Fin 3) : info.toWords.getD (9 + index) 0 = (info.reserved index).toNat :=
    getD_reserved _ _ index
  simp only [ofWords, tail]
  simp [toWords]

theorem ProfileMetrics.ofWords_toWords (metrics : ProfileMetrics) :
    ofWords metrics.toWords = metrics := by
  have tail (index : Fin 4) :
      metrics.toWords.getD (6 + index) 0 = (metrics.reserved index).toNat :=
    getD_reserved _ _ index
  simp only [ofWords, tail]
  simp [toWords]

namespace UapiStruct

/-- A value is determined by its words. -/
theorem ofWords_toWords (struct : UapiStruct) (value : struct.Value) :
    struct.ofWords (struct.toWords value) = value := by
  cases struct with
  | taskDesc => exact TaskDesc.ofWords_toWords value
  | taskStatus => exact TaskStatus.ofWords_toWords value
  | accelInfo => exact AccelInfo.ofWords_toWords value
  | profileMetrics => exact ProfileMetrics.ofWords_toWords value

/-- Every word fits its scalar. -/
theorem toWords_fit (struct : UapiStruct) (value : struct.Value) :
    List.Forall₂ (fun scalar word => word < 256 ^ lp64.size scalar) struct.fields
      (struct.toWords value) := by
  have small32 (word : UInt32) : word.toNat < 256 ^ lp64.size .word32 := word.toNat_lt
  have small64 (word : UInt64) : word.toNat < 256 ^ lp64.size .word64 := word.toNat_lt
  cases struct with
  | taskDesc =>
      simp [fields, toWords, TaskDesc.fields, TaskDesc.toWords, small32, small64,
        List.ofFn_succ]
  | taskStatus =>
      simp [fields, toWords, TaskStatus.fields, TaskStatus.toWords, small32, small64,
        List.ofFn_succ]
  | accelInfo =>
      simp [fields, toWords, AccelInfo.fields, AccelInfo.toWords, small32, small64,
        List.ofFn_succ]
  | profileMetrics =>
      simp [fields, toWords, ProfileMetrics.fields, ProfileMetrics.toWords, small32, small64,
        List.ofFn_succ]

end UapiStruct

/-! ## Which values survive -/

/-- Where the offsets and the size agree, every value survives. -/
theorem survives_of_offsets {struct : UapiStruct} {client : ClientAbi}
    (sizes : ∀ scalar ∈ struct.fields, client.abi.size scalar = lp64.size scalar)
    (offsets : client.abi.offsets struct.fields = lp64.offsets struct.fields)
    (size : client.abi.sizeof struct.fields = lp64.sizeof struct.fields)
    (value : struct.Value) : Survives struct client value where
  size := size
  number := by
    rw [← struct.number_lp64]
    cases struct with
    | taskDesc => exact congrArg (ioc .readWrite magic 1) size
    | taskStatus => exact congrArg (ioc .readWrite magic 2) size
    | accelInfo => exact congrArg (ioc .read magic 4) size
    | profileMetrics => exact congrArg (ioc .read magic 7) size
  decode := fun memory room => by
    rw [Abi.encode_congr sizes offsets, Abi.decode_encode lp64_aligns (struct.toWords_fit value)
      room, struct.ofWords_toWords]

/-- The one incompatible pair: `input_addr` follows five 32-bit words, so i386 lays it
out four bytes earlier than the kernel expects it. -/
def Misplaced (struct : UapiStruct) (client : ClientAbi) : Prop :=
  struct = .taskDesc ∧ client = .i386

instance (struct : UapiStruct) (client : ClientAbi) : Decidable (Misplaced struct client) :=
  inferInstanceAs (Decidable (_ ∧ _))

/-- Away from that pair the two layouts agree. -/
private theorem layout_of_not_misplaced (struct : UapiStruct) (client : ClientAbi)
    (placed : ¬ Misplaced struct client) :
    (∀ scalar ∈ struct.fields, client.abi.size scalar = lp64.size scalar) ∧
      client.abi.offsets struct.fields = lp64.offsets struct.fields ∧
      client.abi.sizeof struct.fields = lp64.sizeof struct.fields := by
  revert placed
  cases struct <;> cases client <;> decide

/-- A value of a UAPI structure survives the way from a 32-bit client into the kernel
exactly when it is not a task descriptor of an i386 client. -/
theorem survives_iff (struct : UapiStruct) (client : ClientAbi) (value : struct.Value) :
    Survives struct client value ↔ ¬ Misplaced struct client := by
  constructor
  · rintro survives ⟨rfl, rfl⟩
    have sizes : ClientAbi.i386.abi.sizeof TaskDesc.fields ≠ lp64.sizeof TaskDesc.fields := by
      decide
    exact sizes survives.size
  · intro placed
    obtain ⟨sizes, offsets, size⟩ := layout_of_not_misplaced struct client placed
    exact survives_of_offsets sizes offsets size value

/-- A request whose input buffer lies at address 1. -/
def lowAddressDesc : TaskDesc := { TaskDesc.zero with inputAddr := 1 }

/-- An i386 client's SUBMIT has a command number that the driver does not know, and
the kernel's layout reads the input address of its descriptor as 0. -/
theorem i386_taskDesc_misread :
    ¬ Survives .taskDesc .i386 lowAddressDesc ∧
      Command.ofNumber (UapiStruct.number ClientAbi.i386.abi .taskDesc) = none ∧
      (TaskDesc.ofWords (lp64.decode TaskDesc.fields (ClientAbi.i386.abi.encode TaskDesc.fields
        lowAddressDesc.toWords (List.replicate 80 0)))).inputAddr = 0 := by
  refine ⟨fun survives => ?_, by decide, by decide⟩
  exact absurd survives.size (by decide)

end CortexForge
