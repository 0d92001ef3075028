import Mathlib.Logic.Function.Iterate

/-!
# Reflected cyclic redundancy checks

A check of width `w` is a register that is shifted right bit by bit; when a set bit leaves
it, the polynomial is added.

* `bit_xor` — a shift is linear;
* `bit_injective` — with the highest bit of the polynomial set, no two registers are
  shifted to the same one;
* `iterate_bit_eq` — `k` shifts depend on the lowest `k` bits through a table, and move
  the others down;
* `foldl_ne_of_differsOnce` — a register fed by steps that are injective in the register and in
  the input tells two inputs of the same length apart when they differ in one place.
-/

namespace Lib

namespace Crc

variable {w : Nat} {p x y : BitVec w}

/-- The register after one shift. -/
def bit (p x : BitVec w) : BitVec w :=
  if x.getLsbD 0 then (x >>> 1) ^^^ p else x >>> 1

theorem bit_xor (p x y : BitVec w) : bit p (x ^^^ y) = bit p x ^^^ bit p y := by
  unfold bit
  rw [BitVec.getLsbD_xor, BitVec.ushiftRight_xor_distrib]
  cases x.getLsbD 0 <;> cases y.getLsbD 0
  · rfl
  · exact BitVec.xor_assoc _ _ _
  · show (x >>> 1 ^^^ y >>> 1) ^^^ p = (x >>> 1 ^^^ p) ^^^ y >>> 1
    rw [BitVec.xor_assoc, BitVec.xor_comm (y >>> 1), BitVec.xor_assoc]
  · show x >>> 1 ^^^ y >>> 1 = (x >>> 1 ^^^ p) ^^^ (y >>> 1 ^^^ p)
    rw [BitVec.xor_comm (y >>> 1) p, BitVec.xor_assoc, ← BitVec.xor_assoc p, BitVec.xor_self,
      BitVec.zero_xor]

theorem iterate_bit_xor (p x y : BitVec w) (k : Nat) :
    (bit p)^[k] (x ^^^ y) = (bit p)^[k] x ^^^ (bit p)^[k] y := by
  induction k generalizing x y with
  | zero => rfl
  | succ k ih => rw [Function.iterate_succ_apply, bit_xor, ih]; rfl

/-- The bit that leaves is the highest one of the new register. -/
theorem msb_bit (hp : p.msb = true) (x : BitVec w) : (bit p x).msb = x.getLsbD 0 := by
  have hshift : (x >>> 1).msb = false := by
    rw [BitVec.msb_ushiftRight]
    rfl
  unfold bit
  cases hx : x.getLsbD 0 with
  | false => exact hshift
  | true =>
    show ((x >>> 1) ^^^ p).msb = true
    rw [BitVec.msb_xor, hshift, hp]
    rfl

theorem bit_injective (hp : p.msb = true) : Function.Injective (bit p) := by
  intro x y h
  have hlow : x.getLsbD 0 = y.getLsbD 0 := by
    rw [← msb_bit hp x, ← msb_bit hp y, h]
  have hshift : x >>> 1 = y >>> 1 := by
    unfold bit at h
    rw [← hlow] at h
    cases hx : x.getLsbD 0 with
    | false =>
      rw [hx] at h
      exact h
    | true =>
      rw [hx] at h
      exact (BitVec.xor_left_inj p).mp h
  apply BitVec.eq_of_getLsbD_eq
  intro i _
  cases i with
  | zero => exact hlow
  | succ i =>
    have hi := congrArg (fun z => z.getLsbD i) hshift
    simp only [BitVec.getLsbD_ushiftRight] at hi
    rwa [Nat.add_comm i 1]

/-- Bits that are not set leave the register by shifts alone. -/
theorem iterate_bit_of_low {k : Nat} (h : ∀ i, i < k → x.getLsbD i = false) :
    (bit p)^[k] x = x >>> k := by
  induction k with
  | zero => exact (BitVec.ushiftRight_zero x).symm
  | succ k ih =>
    have hbit : (x >>> k).getLsbD 0 = false := by
      rw [BitVec.getLsbD_ushiftRight]
      exact h k (Nat.lt_succ_self k)
    rw [Function.iterate_succ_apply', ih (fun i hi => h i (Nat.lt_succ_of_lt hi)), bit, hbit,
      BitVec.shiftRight_add]
    rfl

/-- A register is shifted `k` times by what its lowest `k` bits contribute. -/
theorem iterate_bit_eq (p x mask : BitVec w) (k : Nat)
    (hmask : ∀ i, i < w → mask.getLsbD i = decide (i < k)) :
    (bit p)^[k] x = (bit p)^[k] (x &&& mask) ^^^ (x >>> k) := by
  have hsplit : x = (x &&& mask) ^^^ (x &&& ~~~ mask) := by
    apply BitVec.eq_of_getLsbD_eq
    intro i hi
    simp only [BitVec.getLsbD_xor, BitVec.getLsbD_and, BitVec.getLsbD_not]
    cases x.getLsbD i <;> cases mask.getLsbD i <;> simp [hi]
  have hhigh : (bit p)^[k] (x &&& ~~~ mask) = x >>> k := by
    rw [iterate_bit_of_low]
    · apply BitVec.eq_of_getLsbD_eq
      intro i hi
      simp only [BitVec.getLsbD_ushiftRight, BitVec.getLsbD_and, BitVec.getLsbD_not]
      by_cases hlt : k + i < w
      · rw [hmask _ hlt]
        simp [hlt]
      · rw [BitVec.getLsbD_of_ge x _ (Nat.not_lt.mp hlt), Bool.false_and]
    · intro i hi
      simp only [BitVec.getLsbD_and, BitVec.getLsbD_not]
      by_cases hlt : i < w
      · rw [hmask _ hlt]
        simp [hi]
      · rw [BitVec.getLsbD_of_ge x _ (Nat.not_lt.mp hlt), Bool.false_and]
  calc (bit p)^[k] x
      _ = (bit p)^[k] ((x &&& mask) ^^^ (x &&& ~~~ mask)) := congrArg _ hsplit
      _ = (bit p)^[k] (x &&& mask) ^^^ (x >>> k) := by rw [iterate_bit_xor, hhigh]

end Crc

/-! ### Registers that lose nothing -/

section

variable {S B : Type*} {f : S → B → S}

theorem foldl_injective (hstate : ∀ b, Function.Injective (fun s => f s b)) (bytes : List B) :
    Function.Injective (fun s => bytes.foldl f s) := by
  induction bytes with
  | nil => exact Function.injective_id
  | cons b rest ih => exact ih.comp (hstate b)

/-- The lists differ in one place. -/
inductive DiffersOnce : List B → List B → Prop
  | here {front back : List B} {b b' : B} : b ≠ b' →
      DiffersOnce (front ++ b :: back) (front ++ b' :: back)

theorem DiffersOnce.length_eq {a a' : List B} (h : DiffersOnce a a') : a'.length = a.length := by
  obtain ⟨_⟩ := h
  simp

theorem DiffersOnce.ne {a a' : List B} (h : DiffersOnce a a') : a' ≠ a := by
  obtain ⟨hne⟩ := h
  simp [Ne.symm hne]

/-- The place is in one of two parts. -/
theorem differsOnce_append {a c x : List B} (h : DiffersOnce (a ++ c) x) :
    (∃ a', DiffersOnce a a' ∧ x = a' ++ c) ∨ ∃ c', DiffersOnce c c' ∧ x = a ++ c' := by
  generalize hwhole : a ++ c = whole at h
  obtain @⟨front, back, b, b', hne⟩ := h
  rcases List.append_eq_append_iff.mp hwhole with ⟨middle, hfront, hc⟩ | ⟨middle, ha, hback⟩
  · refine Or.inr ⟨middle ++ b' :: back, ?_, by rw [hfront, List.append_assoc]⟩
    rw [hc]
    exact .here hne
  · cases middle with
    | nil =>
      rw [List.nil_append] at hback
      rw [List.append_nil] at ha
      have hplace : DiffersOnce ([] ++ b :: back) ([] ++ b' :: back) := .here hne
      refine Or.inr ⟨b' :: back, ?_, by rw [ha]⟩
      rw [← hback]
      exact hplace
    | cons d middle =>
      rw [List.cons_append, List.cons.injEq] at hback
      obtain ⟨rfl, rfl⟩ := hback
      refine Or.inl ⟨front ++ b' :: middle, ?_, by simp⟩
      rw [ha]
      exact .here hne

/-- The place is the first one or behind it. -/
theorem differsOnce_cons {b : B} {c x : List B} (h : DiffersOnce (b :: c) x) :
    (∃ b', b ≠ b' ∧ x = b' :: c) ∨ ∃ c', DiffersOnce c c' ∧ x = b :: c' := by
  generalize hwhole : b :: c = whole at h
  obtain @⟨front, back, d, d', hne⟩ := h
  cases front with
  | nil =>
    obtain ⟨rfl, rfl⟩ := List.cons.inj hwhole
    exact Or.inl ⟨d', hne, rfl⟩
  | cons first front =>
    obtain ⟨rfl, rfl⟩ := List.cons.inj hwhole
    exact Or.inr ⟨front ++ d' :: back, .here hne, rfl⟩

theorem DiffersOnce.append_left {a a' : List B} (h : DiffersOnce a a') (front : List B) :
    DiffersOnce (front ++ a) (front ++ a') := by
  obtain ⟨hne⟩ := h
  rw [← List.append_assoc, ← List.append_assoc]
  exact .here hne

theorem DiffersOnce.append_right {a a' : List B} (h : DiffersOnce a a') (back : List B) :
    DiffersOnce (a ++ back) (a' ++ back) := by
  obtain ⟨hne⟩ := h
  rw [List.append_assoc, List.append_assoc]
  exact .here hne

/-- A map that tells the two elements apart tells the lists apart. -/
theorem DiffersOnce.map {C : Type*} {g : B → C} {a a' : List B} (h : DiffersOnce a a')
    (hg : ∀ b ∈ a, ∀ b' ∈ a', b ≠ b' → g b ≠ g b') : DiffersOnce (a.map g) (a'.map g) := by
  obtain @⟨front, back, b, b', hne⟩ := h
  rw [List.map_append, List.map_cons, List.map_append, List.map_cons]
  exact .here (hg b (by simp) b' (by simp) hne)

/-- Two inputs that differ in one place leave different registers. -/
theorem foldl_ne_of_differsOnce (hstate : ∀ b, Function.Injective (fun s => f s b))
    (hinput : ∀ s, Function.Injective (f s)) {a a' : List B} (h : DiffersOnce a a') (s : S) :
    a'.foldl f s ≠ a.foldl f s := by
  obtain @⟨front, back, b, b', hne⟩ := h
  rw [List.foldl_append, List.foldl_append]
  intro heq
  exact hne (hinput _ (foldl_injective hstate back heq)).symm

end

end Lib
