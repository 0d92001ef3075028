import DrainFabric.Json.RoundTrip
import DrainFabric.Runtime

/-!
# Reading a boot marker

Which markers are read is said by `peek_eq_ok`; the one that is written reads back
(`peek_bootMarkerText`).
-/

namespace DrainFabric

open Lib

variable {digits : List Char} {n : Nat} {record : BootRecord} {marker : Option (List Char)}

theorem foldlM_decimalStep (hdigits : ∀ c ∈ digits, c.isDigit = true) (value : Nat)
    (h : Nat.ofDigitChars 10 digits value ≤ u64Max) :
    digits.foldlM decimalStep value = .ok (Nat.ofDigitChars 10 digits value) := by
  induction digits generalizing value with
  | nil => rfl
  | cons c rest ih =>
    rw [Nat.ofDigitChars_cons] at h ⊢
    have hrest := JsonText.pow_le_ofDigitChars rest (10 * value + (c.toNat - '0'.toNat))
    have hone : 1 ≤ 10 ^ rest.length := Nat.one_le_pow _ _ (by decide)
    have hle : 10 * value + (c.toNat - '0'.toNat) ≤ u64Max :=
      (Nat.le_mul_of_pos_right _ hone).trans (hrest.trans h)
    have hstep : decimalStep value c = .ok (10 * value + (c.toNat - '0'.toNat)) := by
      have hdigit : ¬ ¬ c.isDigit = true := not_not.mpr (hdigits c List.mem_cons_self)
      have hmul : mulChecked value 10 = some (10 * value) := by
        have hten : value ≠ 0 → 10 ≤ u64Max / value := fun hne =>
          (Nat.le_div_iff_mul_le (Nat.pos_of_ne_zero hne)).mpr (by omega)
        rw [mulChecked, if_neg (fun h => absurd (hten h.1) (Nat.not_le.mpr h.2)), Nat.mul_comm]
      have hadd : addChecked (10 * value) (c.toNat - '0'.toNat) =
          some (10 * value + (c.toNat - '0'.toNat)) := if_neg (by omega)
      rw [decimalStep, rejectIf, if_neg hdigit, ok_bind, hmul]
      show orFail (addChecked (10 * value) _) _ _ = _
      rw [hadd]
      rfl
    rw [List.foldlM_cons, hstep]
    exact ih (fun d hd => hdigits d (List.mem_cons_of_mem _ hd)) _ h

theorem parseDecimal_toDigits (h : n ≤ u64Max) : parseDecimal (Nat.toDigits 10 n) = .ok n := by
  have hne : Nat.toDigits 10 n ≠ [] := Nat.toDigits_ne_nil
  have hfold := foldlM_decimalStep JsonText.isDigit_toDigits 0
    (le_of_eq_of_le Nat.ofDigitChars_ten_toDigits h)
  rw [Nat.ofDigitChars_ten_toDigits] at hfold
  rw [parseDecimal, rejectIf, if_neg hne, ok_bind, hfold]

theorem digits_of_foldlM {value : Nat} (h : digits.foldlM decimalStep value = .ok n) :
    ∀ c ∈ digits, c.isDigit = true := by
  induction digits generalizing value with
  | nil => exact fun c hc => by cases hc
  | cons c rest ih =>
    rw [List.foldlM_cons, bind_eq_ok] at h
    obtain ⟨next, hstep, hrest⟩ := h
    rw [decimalStep, bind_eq_ok] at hstep
    obtain ⟨_, hdigit, -⟩ := hstep
    intro d hd
    rcases List.mem_cons.mp hd with rfl | hd
    · exact not_not.mp (rejectIf_eq_ok.mp hdigit)
    · exact ih hrest d hd

theorem digits_of_parseDecimal (h : parseDecimal digits = .ok n) :
    digits ≠ [] ∧ ∀ c ∈ digits, c.isDigit = true := by
  rw [parseDecimal, bind_eq_ok] at h
  obtain ⟨_, hne, hfold⟩ := h
  exact ⟨rejectIf_eq_ok.mp hne, digits_of_foldlM hfold⟩

theorem newline_notMem_of_digits (h : ∀ c ∈ digits, c.isDigit = true) :
    '\n' ∉ digits := fun hmem => absurd (h _ hmem) (by decide)

theorem length_digits_le (h : n ≤ u64Max) : (Nat.toDigits 10 n).length ≤ 20 :=
  Nat.toDigits_length 10 n 20 (by decide) (lt_of_le_of_lt h (by decide))

theorem bootChecksum_spec (incarnation epoch : List Char) :
    '\n' ∉ bootChecksum incarnation epoch ∧ (bootChecksum incarnation epoch).length = 8 := by
  rw [bootChecksum, hexU32, String.toList_ofList]
  refine ⟨fun h => ?_, by simp⟩
  obtain ⟨i, -, hi⟩ := List.mem_map.mp h
  have hdigit : ∀ d < 16, Nat.digitChar d ≠ '\n' := by decide
  exact hdigit _ (Nat.mod_lt _ (by decide)) hi

/-- A marker with these lines, and whatever follows them. -/
def markerLines (incarnation epoch checksum rest : List Char) : List Char :=
  bootMarkerHead ++ '\n' :: (incarnation ++ '\n' :: (epoch ++ '\n' :: (checksum ++ '\n' :: rest)))

/-- The texts that are read. -/
theorem peek_eq_ok {text : List Char} :
    peekBootRecord (some text) = .ok record ↔
      ∃ incarnation epoch rest, text.take 192 =
          markerLines incarnation epoch (bootChecksum incarnation epoch) rest ∧
        parseDecimal incarnation = .ok record.incarnation ∧
        parseDecimal epoch = .ok record.epoch := by
  simp only [peekBootRecord, bind_eq_ok, orFail_eq_ok, rejectIf_eq_ok, pure_eq_ok, Prod.exists,
    cut_eq_some, not_not]
  constructor
  · rintro ⟨head, rest₁, ⟨-, htext⟩, -, rfl, incarnation, rest₂, ⟨-, rfl⟩, epoch, rest₃, ⟨-, rfl⟩,
      checksum, rest₄, ⟨-, rfl⟩, i, hi, n, hn, -, rfl, rfl⟩
    exact ⟨incarnation, epoch, rest₄, htext, hi, hn⟩
  · rintro ⟨incarnation, epoch, rest, htext, hi, hn⟩
    exact ⟨bootMarkerHead, _, ⟨by decide, htext⟩, (), rfl, incarnation, _,
      ⟨newline_notMem_of_digits (digits_of_parseDecimal hi).2, rfl⟩, epoch, _,
      ⟨newline_notMem_of_digits (digits_of_parseDecimal hn).2, rfl⟩, _, rest,
      ⟨(bootChecksum_spec incarnation epoch).1, rfl⟩, _, hi, _, hn, (), rfl, rfl⟩

theorem bootMarkerText_eq (record : BootRecord) :
    bootMarkerText record = markerLines (Nat.toDigits 10 record.incarnation)
      (Nat.toDigits 10 record.epoch)
      (bootChecksum (Nat.toDigits 10 record.incarnation) (Nat.toDigits 10 record.epoch)) [] := by
  simp only [bootMarkerText, JsonText.toList_toString, markerLines]

theorem length_bootMarkerText_le (hincarnation : record.incarnation ≤ u64Max)
    (hepoch : record.epoch ≤ u64Max) : (bootMarkerText record).length ≤ 62 := by
  have hi := length_digits_le hincarnation
  have he := length_digits_le hepoch
  have hchecksum := bootChecksum_spec (Nat.toDigits 10 record.incarnation)
    (Nat.toDigits 10 record.epoch)
  have hhead : bootMarkerHead.length = 10 := by decide
  simp only [bootMarkerText_eq, markerLines, List.length_append, List.length_cons, hchecksum.2,
    hhead, List.length_nil]
  omega

/-- The marker a start writes reads back. -/
theorem peek_bootMarkerText (hincarnation : record.incarnation ≤ u64Max)
    (hepoch : record.epoch ≤ u64Max) :
    peekBootRecord (some (bootMarkerText record)) = .ok record := by
  have hlength := length_bootMarkerText_le hincarnation hepoch
  refine peek_eq_ok.mpr ⟨Nat.toDigits 10 record.incarnation, Nat.toDigits 10 record.epoch, [], ?_,
    parseDecimal_toDigits hincarnation, parseDecimal_toDigits hepoch⟩
  rw [List.take_of_length_le (hlength.trans (by decide)), bootMarkerText_eq]

end DrainFabric
