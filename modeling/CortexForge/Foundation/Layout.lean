import Mathlib.Data.List.Basic
import Mathlib.Tactic.Ring

/-!
Contract: byte images of C structures.

A structure is the list of its scalars in declaration order, an array being its
elements. An ABI fixes the size and the alignment of each scalar; offsets, the
structure's alignment and its size follow by the usual C rules. A value is laid
out by storing its scalars, little-endian, into memory with arbitrary previous
contents, so padding bytes keep whatever was there.

Owns: little-endian words, slices and stores in byte lists, layouts, the round
trip of a structure through its image, and what stores into an image do to it.

Does not own: bit fields, unions, or any particular structure.
-/

namespace CortexForge.Foundation

/-! ## Words -/

/-- The `size` low bytes of a number, least significant first. -/
def leBytes : Nat → Nat → List UInt8
  | 0, _ => []
  | size + 1, value => UInt8.ofNat value :: leBytes size (value / 256)

/-- The number a little-endian byte list denotes. -/
def ofLeBytes : List UInt8 → Nat
  | [] => 0
  | byte :: rest => byte.toNat + 256 * ofLeBytes rest

@[simp] theorem leBytes_length (size value : Nat) :
    (leBytes size value).length = size := by
  induction size generalizing value with
  | zero => rfl
  | succ size inductionHypothesis => simp [leBytes, inductionHypothesis]

theorem ofLeBytes_leBytes (size value : Nat) :
    ofLeBytes (leBytes size value) = value % 256 ^ size := by
  induction size generalizing value with
  | zero => simp [leBytes, ofLeBytes, Nat.mod_one]
  | succ size inductionHypothesis =>
      simp only [leBytes, ofLeBytes, inductionHypothesis, UInt8.toNat_ofNat']
      rw [pow_succ' 256 size]
      exact Nat.mod_mul.symm

/-! ## Slices and stores -/

/-- The `size` bytes from `offset` on. -/
def slice (offset size : Nat) (image : List UInt8) : List UInt8 :=
  (image.drop offset).take size

/-- Overwrite the bytes from `offset` on. -/
def patch (offset : Nat) (data image : List UInt8) : List UInt8 :=
  image.take offset ++ (data ++ image.drop (offset + data.length))

theorem patch_length {offset : Nat} {data image : List UInt8}
    (fits : offset + data.length ≤ image.length) :
    (patch offset data image).length = image.length := by
  simp only [patch, List.length_append, List.length_take, List.length_drop]
  omega

theorem slice_patch_same {offset : Nat} {data image : List UInt8}
    (fits : offset + data.length ≤ image.length) :
    slice offset data.length (patch offset data image) = data := by
  have taken : (image.take offset).length = offset := by
    rw [List.length_take]
    omega
  unfold slice patch
  rw [List.drop_append_of_le_length taken.ge, List.drop_of_length_le taken.le,
    List.nil_append, List.take_left]

/-- A store leaves every slice below it alone. -/
theorem slice_patch_below {offset start size : Nat} {data image : List UInt8}
    (below : start + size ≤ offset) (fits : offset + data.length ≤ image.length) :
    slice start size (patch offset data image) = slice start size image := by
  have taken : (image.take offset).length = offset := by
    rw [List.length_take]
    omega
  unfold slice patch
  rw [List.drop_append_of_le_length (by omega),
    List.take_append_of_le_length (by rw [List.length_drop]; omega),
    List.drop_take, List.take_take, Nat.min_eq_left (by omega)]

/-- A store leaves every slice above it alone. -/
theorem slice_patch_above {offset start size : Nat} {data image : List UInt8}
    (above : offset + data.length ≤ start) (fits : offset + data.length ≤ image.length) :
    slice start size (patch offset data image) = slice start size image := by
  have taken : (image.take offset).length = offset := by
    rw [List.length_take]
    omega
  unfold slice patch
  rw [← List.append_assoc, List.drop_append, List.drop_of_length_le, List.nil_append,
    List.drop_drop]
  · congr 2
    rw [List.length_append, taken]
    omega
  · rw [List.length_append, taken]
    exact above

/-! ## Layouts -/

/-- The scalar types of the structures laid out here. -/
inductive Scalar where
  | word32
  | word64
  | pointer
deriving DecidableEq, Repr

/-- What the layout rules need to know about a platform. -/
structure Abi where
  pointerSize : Nat
  align : Nat → Nat

namespace Abi

variable (abi : Abi)

def size : Scalar → Nat
  | .word32 => 4
  | .word64 => 8
  | .pointer => abi.pointerSize

/-- Round an offset up to the alignment of a scalar. -/
def place (scalar : Scalar) (offset : Nat) : Nat :=
  (offset + abi.align (abi.size scalar) - 1) / abi.align (abi.size scalar) *
    abi.align (abi.size scalar)

/-- The offsets of a list of scalars, the first not before `offset`. -/
def offsetsFrom : Nat → List Scalar → List Nat
  | _, [] => []
  | offset, scalar :: rest =>
      abi.place scalar offset ::
        offsetsFrom (abi.place scalar offset + abi.size scalar) rest

def offsets (fields : List Scalar) : List Nat := abi.offsetsFrom 0 fields

/-- The first offset after a list of scalars. -/
def endFrom : Nat → List Scalar → Nat
  | offset, [] => offset
  | offset, scalar :: rest => endFrom (abi.place scalar offset + abi.size scalar) rest

def structAlign (fields : List Scalar) : Nat :=
  (fields.map fun scalar => abi.align (abi.size scalar)).foldr max 1

/-- `sizeof`: the end of the last field, rounded up to the structure's
alignment. -/
def sizeof (fields : List Scalar) : Nat :=
  (abi.endFrom 0 fields + abi.structAlign fields - 1) / abi.structAlign fields *
    abi.structAlign fields

/-- Store the scalars of a structure into memory, from `offset` on. -/
def encodeFrom : Nat → List Scalar → List Nat → List UInt8 → List UInt8
  | offset, scalar :: fields, value :: values, image =>
      encodeFrom (abi.place scalar offset + abi.size scalar) fields values
        (patch (abi.place scalar offset) (leBytes (abi.size scalar) value) image)
  | _, _, _, image => image

def encode (fields : List Scalar) (values : List Nat) (image : List UInt8) :
    List UInt8 :=
  abi.encodeFrom 0 fields values image

/-- Load the scalars of a structure from memory, from `offset` on. -/
def decodeFrom : Nat → List Scalar → List UInt8 → List Nat
  | _, [], _ => []
  | offset, scalar :: fields, image =>
      ofLeBytes (slice (abi.place scalar offset) (abi.size scalar) image) ::
        decodeFrom (abi.place scalar offset + abi.size scalar) fields image

def decode (fields : List Scalar) (image : List UInt8) : List Nat :=
  abi.decodeFrom 0 fields image

/-- Store one scalar, given by its position in the structure. -/
def store (fields : List Scalar) (position : Nat) (value : Nat)
    (image : List UInt8) : List UInt8 :=
  patch ((abi.offsets fields).getD position 0)
    (leBytes (abi.size (fields.getD position .word32)) value) image

/-! ## Round trip -/

/-- The alignment rules of a platform never ask for alignment to nothing. -/
structure Aligns : Prop where
  positive : ∀ scalar, 0 < abi.align (abi.size scalar)

variable {abi}

theorem Aligns.le_place (aligns : abi.Aligns) (scalar : Scalar) (offset : Nat) :
    offset ≤ abi.place scalar offset := by
  have positive := aligns.positive scalar
  unfold place
  generalize abi.align (abi.size scalar) = alignment at positive
  have split := Nat.div_add_mod (offset + alignment - 1) alignment
  have remainder := Nat.mod_lt (offset + alignment - 1) positive
  rw [Nat.mul_comm] at split
  omega

theorem Aligns.le_endFrom (aligns : abi.Aligns) (fields : List Scalar) (offset : Nat) :
    offset ≤ abi.endFrom offset fields := by
  induction fields generalizing offset with
  | nil => exact le_rfl
  | cons scalar fields inductionHypothesis =>
      have placed := aligns.le_place scalar offset
      have rest := inductionHypothesis (abi.place scalar offset + abi.size scalar)
      rw [endFrom]
      omega

/-- The scalars of a structure end within its size. -/
theorem endFrom_le_sizeof (fields : List Scalar) : abi.endFrom 0 fields ≤ abi.sizeof fields := by
  have positive : 0 < abi.structAlign fields := by
    unfold structAlign
    generalize (fields.map fun scalar => abi.align (abi.size scalar)) = alignments
    cases alignments with
    | nil => exact Nat.one_pos
    | cons head tail =>
        have : 1 ≤ (head :: tail).foldr max 1 := by
          induction tail generalizing head with
          | nil => exact le_max_right _ _
          | cons next tail inductionHypothesis =>
              exact le_trans (inductionHypothesis next) (le_max_right _ _)
        exact this
  unfold sizeof
  generalize abi.structAlign fields = alignment at positive
  have split := Nat.div_add_mod (abi.endFrom 0 fields + alignment - 1) alignment
  have remainder := Nat.mod_lt (abi.endFrom 0 fields + alignment - 1) positive
  rw [Nat.mul_comm] at split
  omega

/-- The first scalar of a structure that fits is stored inside the image. -/
theorem Aligns.store_fits (aligns : abi.Aligns) {scalar : Scalar} {fields : List Scalar}
    {offset : Nat} {image : List UInt8} (value : Nat)
    (fits : abi.endFrom (abi.place scalar offset + abi.size scalar) fields ≤ image.length) :
    abi.place scalar offset + (leBytes (abi.size scalar) value).length ≤ image.length := by
  have room := aligns.le_endFrom fields (abi.place scalar offset + abi.size scalar)
  rw [leBytes_length]
  omega

/-- Storing scalars leaves every slice below them alone. -/
theorem slice_encodeFrom_below (aligns : abi.Aligns) {start size : Nat} (fields : List Scalar)
    (values : List Nat) (offset : Nat) (image : List UInt8) (below : start + size ≤ offset)
    (fits : abi.endFrom offset fields ≤ image.length) :
    slice start size (abi.encodeFrom offset fields values image) = slice start size image := by
  induction fields generalizing values offset image with
  | nil => rw [encodeFrom]; simp
  | cons scalar fields inductionHypothesis =>
      cases values with
      | nil => rw [encodeFrom]; simp
      | cons value values =>
          have placed := aligns.le_place scalar offset
          rw [endFrom] at fits
          have stored := aligns.store_fits value fits
          rw [encodeFrom, inductionHypothesis values _ _ (by omega)
            (by rw [patch_length stored]; exact fits), slice_patch_below (by omega) stored]

theorem decodeFrom_encodeFrom (aligns : abi.Aligns) {fields : List Scalar} {values : List Nat}
    (fitting : List.Forall₂ (fun scalar value => value < 256 ^ abi.size scalar) fields values)
    (offset : Nat) (image : List UInt8) (fits : abi.endFrom offset fields ≤ image.length) :
    abi.decodeFrom offset fields (abi.encodeFrom offset fields values image) = values := by
  induction fitting generalizing offset image with
  | nil => rfl
  | @cons scalar value fields values small _ inductionHypothesis =>
      rw [endFrom] at fits
      have stored := aligns.store_fits value fits
      have kept := slice_patch_same stored
      rw [leBytes_length] at kept
      have later : abi.endFrom (abi.place scalar offset + abi.size scalar) fields ≤
          (patch (abi.place scalar offset) (leBytes (abi.size scalar) value) image).length := by
        rw [patch_length stored]
        exact fits
      rw [encodeFrom, decodeFrom, inductionHypothesis _ _ later,
        slice_encodeFrom_below aligns fields values _ _ le_rfl later, kept, ofLeBytes_leBytes,
        Nat.mod_eq_of_lt small]

/-- A structure survives the round trip through memory. -/
theorem decode_encode (aligns : abi.Aligns) {fields : List Scalar} {values : List Nat}
    (fitting : List.Forall₂ (fun scalar value => value < 256 ^ abi.size scalar) fields values)
    {image : List UInt8} (room : abi.sizeof fields ≤ image.length) :
    abi.decode fields (abi.encode fields values image) = values :=
  decodeFrom_encodeFrom aligns fitting 0 image
    (le_trans (endFrom_le_sizeof fields) room)

/-! ## Stores -/

/-- A store below a structure leaves the structure alone. -/
theorem decodeFrom_patch_above (aligns : abi.Aligns) {start : Nat} {data image : List UInt8}
    (fits : start + data.length ≤ image.length) (fields : List Scalar) (offset : Nat)
    (above : start + data.length ≤ offset) :
    abi.decodeFrom offset fields (patch start data image) = abi.decodeFrom offset fields image := by
  induction fields generalizing offset with
  | nil => rfl
  | cons scalar fields inductionHypothesis =>
      have placed := aligns.le_place scalar offset
      rw [decodeFrom, decodeFrom, slice_patch_above (by omega) fits,
        inductionHypothesis _ (by omega)]

/-- The offsets of a structure do not lie before it. -/
theorem Aligns.le_offset (aligns : abi.Aligns) (fields : List Scalar) (offset position : Nat)
    (inRange : position < fields.length) :
    offset ≤ (abi.offsetsFrom offset fields).getD position 0 := by
  induction fields generalizing offset position with
  | nil => exact absurd inRange (Nat.not_lt_zero position)
  | cons scalar fields inductionHypothesis =>
      have placed := aligns.le_place scalar offset
      cases position with
      | zero => exact placed
      | succ position =>
          have later := inductionHypothesis (abi.place scalar offset + abi.size scalar) position
            (Nat.lt_of_succ_lt_succ inRange)
          rw [offsetsFrom, List.getD_cons_succ]
          omega

/-- Every scalar of a structure lies inside it. -/
theorem Aligns.offset_le_end (aligns : abi.Aligns) (fields : List Scalar) (offset position : Nat)
    (inRange : position < fields.length) :
    (abi.offsetsFrom offset fields).getD position 0 + abi.size (fields.getD position .word32) ≤
      abi.endFrom offset fields := by
  induction fields generalizing offset position with
  | nil => exact absurd inRange (Nat.not_lt_zero position)
  | cons scalar fields inductionHypothesis =>
      cases position with
      | zero => exact aligns.le_endFrom fields _
      | succ position =>
          exact inductionHypothesis _ position (Nat.lt_of_succ_lt_succ inRange)

/-- A store into one scalar changes that scalar only. -/
theorem decodeFrom_store (aligns : abi.Aligns) (fields : List Scalar) (offset position value : Nat)
    (image : List UInt8) (inRange : position < fields.length)
    (small : value < 256 ^ abi.size (fields.getD position .word32))
    (fits : abi.endFrom offset fields ≤ image.length) :
    abi.decodeFrom offset fields
        (patch ((abi.offsetsFrom offset fields).getD position 0)
          (leBytes (abi.size (fields.getD position .word32)) value) image) =
      (abi.decodeFrom offset fields image).set position value := by
  induction fields generalizing offset position with
  | nil => exact absurd inRange (Nat.not_lt_zero position)
  | cons scalar fields inductionHypothesis =>
      have inside := aligns.offset_le_end (scalar :: fields) offset position inRange
      cases position with
      | zero =>
          rw [List.getD_cons_zero] at small
          have stored : abi.place scalar offset + (leBytes (abi.size scalar) value).length ≤
            image.length := aligns.store_fits value fits
          have kept := slice_patch_same stored
          rw [leBytes_length] at kept
          rw [offsetsFrom, List.getD_cons_zero, List.getD_cons_zero, decodeFrom, kept,
            ofLeBytes_leBytes, Nat.mod_eq_of_lt small,
            decodeFrom_patch_above aligns stored fields _ (by rw [leBytes_length])]
          rfl
      | succ position =>
          have above := aligns.le_offset fields (abi.place scalar offset + abi.size scalar) position
            (Nat.lt_of_succ_lt_succ inRange)
          rw [offsetsFrom, List.getD_cons_succ, List.getD_cons_succ] at inside ⊢
          have stored : (abi.offsetsFrom (abi.place scalar offset + abi.size scalar) fields).getD
              position 0 + (leBytes (abi.size (fields.getD position .word32)) value).length ≤
              image.length := by
            rw [leBytes_length]
            exact le_trans inside fits
          rw [decodeFrom, slice_patch_below above stored,
            inductionHypothesis _ position (Nat.lt_of_succ_lt_succ inRange) small fits]
          rfl

/-- The same for a whole structure. -/
theorem decode_store (aligns : abi.Aligns) {fields : List Scalar} {position value : Nat}
    {image : List UInt8} (inRange : position < fields.length)
    (small : value < 256 ^ abi.size (fields.getD position .word32))
    (room : abi.sizeof fields ≤ image.length) :
    abi.decode fields (abi.store fields position value image) =
      (abi.decode fields image).set position value :=
  decodeFrom_store aligns fields 0 position value image inRange small
    (le_trans (endFrom_le_sizeof fields) room)

/-- A store does not change the size of an image. -/
theorem store_length (aligns : abi.Aligns) {fields : List Scalar} {position value : Nat}
    {image : List UInt8} (inRange : position < fields.length)
    (room : abi.sizeof fields ≤ image.length) :
    (abi.store fields position value image).length = image.length := by
  have inside := aligns.offset_le_end fields 0 position inRange
  have within : abi.endFrom 0 fields ≤ abi.sizeof fields := endFrom_le_sizeof fields
  refine patch_length ?_
  rw [leBytes_length]
  exact le_trans inside (le_trans within room)

/-- A scalar of a structure and a value for it. -/
def Fits (abi : Abi) (fields : List Scalar) (write : Nat × Nat) : Prop :=
  write.1 < fields.length ∧ write.2 < 256 ^ abi.size (fields.getD write.1 .word32)

/-- A sequence of stores changes the words one after the other, and not the size of the
image. -/
theorem decode_stores (aligns : abi.Aligns) {fields : List Scalar} (writes : List (Nat × Nat))
    (fit : ∀ write ∈ writes, abi.Fits fields write) {image : List UInt8}
    (room : abi.sizeof fields ≤ image.length) :
    abi.decode fields (writes.foldl (fun image write =>
        abi.store fields write.1 write.2 image) image) =
      writes.foldl (fun words write => words.set write.1 write.2) (abi.decode fields image) ∧
    (writes.foldl (fun image write => abi.store fields write.1 write.2 image) image).length =
      image.length := by
  induction writes generalizing image with
  | nil => exact ⟨rfl, rfl⟩
  | cons write writes inductionHypothesis =>
      obtain ⟨inRange, small⟩ := fit write List.mem_cons_self
      have sameLength : (abi.store fields write.1 write.2 image).length = image.length :=
        store_length aligns inRange room
      have later := inductionHypothesis
        (fun other member => fit other (List.mem_cons_of_mem _ member)) (sameLength ▸ room)
      rw [List.foldl_cons, List.foldl_cons, later.1, later.2, sameLength,
        decode_store aligns inRange small room]
      exact ⟨rfl, rfl⟩

/-! ## Two platforms -/

/-- Storing depends on the platform only through the sizes and the offsets. -/
theorem encodeFrom_congr {other : Abi} (fields : List Scalar)
    (sizes : ∀ scalar ∈ fields, abi.size scalar = other.size scalar) (offset start : Nat)
    (offsets : abi.offsetsFrom offset fields = other.offsetsFrom start fields)
    (values : List Nat) (image : List UInt8) :
    abi.encodeFrom offset fields values image = other.encodeFrom start fields values image := by
  induction fields generalizing offset start values image with
  | nil => rw [encodeFrom, encodeFrom] <;> simp
  | cons scalar fields inductionHypothesis =>
      cases values with
      | nil => rw [encodeFrom, encodeFrom] <;> simp
      | cons value values =>
          simp only [offsetsFrom, List.cons.injEq] at offsets
          obtain ⟨place, rest⟩ := offsets
          rw [encodeFrom, encodeFrom, place, sizes scalar List.mem_cons_self]
          rw [place, sizes scalar List.mem_cons_self] at rest
          exact inductionHypothesis
            (fun scalar member => sizes scalar (List.mem_cons_of_mem _ member)) _ _ rest _ _

theorem encode_congr {other : Abi} {fields : List Scalar}
    (sizes : ∀ scalar ∈ fields, abi.size scalar = other.size scalar)
    (offsets : abi.offsets fields = other.offsets fields) (values : List Nat)
    (image : List UInt8) : abi.encode fields values image = other.encode fields values image :=
  encodeFrom_congr fields sizes 0 0 offsets values image

end Abi

end CortexForge.Foundation
