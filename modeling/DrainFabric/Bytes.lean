import Mathlib.Logic.Function.Basic
import DrainFabric.Base
import DrainFabric.Lib.Crc

/-!
# Bytes: checksums, numbers and texts

What the snapshot file and the frames of the wire are made of: the table-driven
`crc32c`, numbers in little-endian order, and texts byte by byte.
-/

namespace DrainFabric

open Lib

variable {width value offset : Nat} {front back : List UInt8}

/-! ### Checksums (`crc32c.cpp`) -/

/-- The reflected CRC-32C polynomial. -/
def crcPolynomial : UInt32 := 0x82f63b78

/-- One bit of a table entry. -/
def crcBit (crc : UInt32) : UInt32 :=
  if crc &&& 1 ≠ 0 then (crc >>> 1) ^^^ crcPolynomial else crc >>> 1

/-- The entry of the table. -/
def crcEntry (index : UInt32) : UInt32 := Nat.repeat crcBit 8 index

/-- One round of `crc32c`. -/
def crcRound (crc : UInt32) (byte : UInt8) : UInt32 :=
  crcEntry ((crc ^^^ byte.toUInt32) &&& 0xff) ^^^ (crc >>> 8)

/-- `crc32c`. -/
def crc32c (bytes : List UInt8) (seed : UInt32 := 0) : UInt32 :=
  ~~~ (bytes.foldl crcRound (~~~ seed))

theorem crcBit_toBitVec (crc : UInt32) :
    (crcBit crc).toBitVec = Crc.bit crcPolynomial.toBitVec crc.toBitVec := by
  have hlow : crc &&& 1 ≠ 0 ↔ crc.toBitVec.getLsbD 0 = true := by
    rw [ne_eq, ← UInt32.toBitVec_inj, UInt32.toBitVec_and]
    show ¬ crc.toBitVec &&& 1#32 = 0#32 ↔ _
    rw [BitVec.and_one_eq_setWidth_ofBool_getLsbD]
    cases crc.toBitVec.getLsbD 0 <;> decide
  unfold crcBit Crc.bit
  by_cases hbit : crc.toBitVec.getLsbD 0 = true
  · rw [if_pos (hlow.mpr hbit), if_pos hbit]
    rfl
  · rw [if_neg (mt hlow.mp hbit), if_neg hbit]
    rfl

theorem crcEntry_toBitVec (index : UInt32) :
    (crcEntry index).toBitVec = (Crc.bit crcPolynomial.toBitVec)^[8] index.toBitVec := by
  have hrepeat : ∀ k, (Nat.repeat crcBit k index).toBitVec =
      (Crc.bit crcPolynomial.toBitVec)^[k] index.toBitVec := by
    intro k
    induction k with
    | zero => rfl
    | succ k ih => rw [Nat.repeat, crcBit_toBitVec, ih, Function.iterate_succ_apply']
  exact hrepeat 8

/-- A round shifts the register, with the byte added to it, eight times. -/
theorem crcRound_toBitVec (crc : UInt32) (byte : UInt8) :
    (crcRound crc byte).toBitVec =
      (Crc.bit crcPolynomial.toBitVec)^[8] (crc ^^^ byte.toUInt32).toBitVec := by
  have hmask : ∀ i, i < 32 → (0xff#32).getLsbD i = decide (i < 8) := by decide
  have hbyte : (crc ^^^ byte.toUInt32).toBitVec >>> 8 = (crc >>> 8).toBitVec := by
    have hzero : byte.toUInt32.toBitVec >>> 8 = 0#32 := by
      apply BitVec.eq_of_toNat_eq
      rw [BitVec.toNat_ushiftRight, Nat.shiftRight_eq_div_pow]
      exact Nat.div_eq_of_lt (by simpa using byte.toNat_lt)
    rw [UInt32.toBitVec_xor, BitVec.ushiftRight_xor_distrib, hzero, BitVec.xor_zero]
    rfl
  rw [Crc.iterate_bit_eq _ _ 0xff#32 8 hmask, hbyte, crcRound, UInt32.toBitVec_xor,
    crcEntry_toBitVec]
  rfl

/-- Bytes that differ in one place have different checksums. -/
theorem crc32c_ne_of_differsOnce {bytes bytes' : List UInt8} (h : DiffersOnce bytes bytes') :
    crc32c bytes' ≠ crc32c bytes := by
  have hshift : Function.Injective ((Crc.bit crcPolynomial.toBitVec)^[8]) :=
    (Crc.bit_injective (by decide)).iterate 8
  have hround : ∀ {x x' : UInt32} {b b' : UInt8}, crcRound x b = crcRound x' b' →
      x ^^^ b.toUInt32 = x' ^^^ b'.toUInt32 := by
    intro x x' b b' heq
    apply UInt32.toBitVec_inj.mp
    apply hshift
    rw [← crcRound_toBitVec, ← crcRound_toBitVec, heq]
  rw [crc32c, crc32c]
  intro heq
  refine foldl_ne_of_differsOnce (f := crcRound) ?_ ?_ h _ (UInt32.not_inj.mp heq)
  · intro b x x' hx
    exact (UInt32.xor_left_inj _).mp (hround hx)
  · intro x b b' hx
    exact UInt8.toUInt32_inj.mp ((UInt32.xor_right_inj _).mp (hround hx))

/-! ### Numbers in little-endian order -/

/-- The lowest `width` bytes of a number, lowest first. -/
def putUint : (width value : Nat) → List UInt8
  | 0, _ => []
  | width + 1, value => UInt8.ofNat value :: putUint width (value / 256)

/-- `put_u16`. -/
def putU16 (value : Nat) : List UInt8 := putUint 2 value

/-- `put_u32`. -/
def putU32 (value : Nat) : List UInt8 := putUint 4 value

/-- `put_u64`. -/
def putU64 (value : Nat) : List UInt8 := putUint 8 value

/-- The number whose bytes are given, lowest first. -/
def getUint (bytes : List UInt8) : Nat := bytes.foldr (fun byte value => value * 256 + byte.toNat) 0

/-- The number in `width` bytes at an offset. -/
def getAt (width : Nat) (bytes : List UInt8) (offset : Nat) : Nat :=
  getUint ((bytes.drop offset).take width)

/-- `get_u16` at an offset. -/
def getU16 (bytes : List UInt8) (offset : Nat) : Nat := getAt 2 bytes offset

/-- `get_u32` at an offset. -/
def getU32 (bytes : List UInt8) (offset : Nat) : Nat := getAt 4 bytes offset

/-- `get_u64` at an offset. -/
def getU64 (bytes : List UInt8) (offset : Nat) : Nat := getAt 8 bytes offset

@[simp] theorem length_putUint (width value : Nat) : (putUint width value).length = width := by
  induction width generalizing value with
  | zero => rfl
  | succ width ih => rw [putUint, List.length_cons, ih]

theorem getUint_putUint (h : value < 256 ^ width) : getUint (putUint width value) = value := by
  induction width generalizing value with
  | zero =>
    rw [Nat.pow_zero] at h
    exact (Nat.lt_one_iff.mp h).symm
  | succ width ih =>
    rw [Nat.pow_succ'] at h
    have hdiv : value / 256 < 256 ^ width := Nat.div_lt_of_lt_mul h
    show getUint (putUint width (value / 256)) * 256 + (UInt8.ofNat value).toNat = value
    rw [ih hdiv, UInt8.toNat_ofNat']
    omega

theorem getAt_skip (h : front.length ≤ offset) :
    getAt width (front ++ back) offset = getAt width back (offset - front.length) := by
  rw [getAt, List.drop_append, List.drop_of_length_le h, List.nil_append, getAt]

theorem getAt_append (h : offset + width ≤ front.length) :
    getAt width (front ++ back) offset = getAt width front offset := by
  rw [getAt, getAt, List.drop_append_of_le_length (by omega), List.take_append_of_le_length]
  rw [List.length_drop]
  omega

theorem getAt_putUint (h : value < 256 ^ width) (back : List UInt8) :
    getAt width (putUint width value ++ back) 0 = value := by
  rw [getAt, List.drop_zero, List.take_append_of_le_length (by rw [length_putUint]),
    List.take_of_length_le (by rw [length_putUint]), getUint_putUint h]

/-- Different bytes of one length are different numbers. -/
theorem getUint_injective {bytes bytes' : List UInt8} (hlength : bytes'.length = bytes.length)
    (h : getUint bytes' = getUint bytes) : bytes' = bytes := by
  induction bytes generalizing bytes' with
  | nil => exact List.length_eq_zero_iff.mp hlength
  | cons b rest ih =>
    cases bytes' with
    | nil => cases hlength
    | cons b' rest' =>
      have hsum : getUint rest' * 256 + b'.toNat = getUint rest * 256 + b.toNat := h
      have hb := b.toNat_lt
      have hb' := b'.toNat_lt
      rw [ih (Nat.succ.inj hlength) (by omega), UInt8.toNat_inj.mp (by omega : b'.toNat = b.toNat)]

theorem lt_of_le_u64Max (h : value ≤ u64Max) : value < 256 ^ 8 :=
  Nat.lt_of_le_of_lt h (by decide)

theorem toNat_lt_u32 (value : UInt32) : value.toNat < 256 ^ 4 := value.toNat_lt

theorem getU32_middle {middle : List UInt8} (hfront : front.length = offset)
    (hmiddle : middle.length = 4) : getU32 (front ++ (middle ++ back)) offset = getUint middle := by
  rw [getU32, getAt, List.drop_left' hfront, List.take_left' hmiddle]

/-- A checksum is read back. -/
theorem getU32_written (hfront : front.length = offset) (value : UInt32) (back : List UInt8) :
    getU32 (front ++ (putU32 value.toNat ++ back)) offset = value.toNat := by
  rw [putU32, getU32_middle hfront (length_putUint _ _), getUint_putUint (toNat_lt_u32 _)]

/-! ### Texts -/

/-- The bytes of a text. -/
def bytesOf (text : List Char) : List UInt8 := text.map (fun c => UInt8.ofNat c.toNat)

/-- The text bytes stand for. -/
def textOf (bytes : List UInt8) : List Char := bytes.map (fun byte => Char.ofNat byte.toNat)

/-- Every `Char` of the text is a byte. -/
def AllBytes (text : List Char) : Prop := ∀ c ∈ text, c.toNat < 256

theorem textOf_bytesOf {text : List Char} (h : AllBytes text) : textOf (bytesOf text) = text := by
  rw [textOf, bytesOf, List.map_map]
  conv_rhs => rw [← List.map_id text]
  refine List.map_congr_left (fun c hc => ?_)
  rw [Function.comp_apply, UInt8.toNat_ofNat', Nat.mod_eq_of_lt (h c hc), Char.ofNat_toNat, id]

theorem AllBytes.append_left {a b : List Char} (h : AllBytes (a ++ b)) : AllBytes a :=
  fun c hc => h c (List.mem_append_left _ hc)

theorem AllBytes.append_right {a b : List Char} (h : AllBytes (a ++ b)) : AllBytes b :=
  fun c hc => h c (List.mem_append_right _ hc)

theorem AllBytes.append {text text' : List Char} (h : AllBytes text) (h' : AllBytes text') :
    AllBytes (text ++ text') :=
  List.forall_mem_append.mpr ⟨h, h'⟩

theorem AllBytes.cons {c : Char} (hc : c.toNat < 256) {text : List Char} (h : AllBytes text) :
    AllBytes (c :: text) := by
  intro d hd
  rcases List.mem_cons.mp hd with rfl | hd
  · exact hc
  · exact h d hd

end DrainFabric
