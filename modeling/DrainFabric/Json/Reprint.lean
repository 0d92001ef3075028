import Mathlib.Algebra.Order.BigOperators.Group.List
import DrainFabric.Json.RoundTrip
import DrainFabric.Bytes

/-!
# Texts that are printed again

A text that was read is printed again from its value. What the grammar denotes without a
double is plain (`plain_of_value`), so the second text is read back. It may be longer than
the first one when it is indented; printed compactly it never is (`length_dump_le`), as
every text spells out at least what the compact one does.
-/

namespace DrainFabric

open JsonText JsonGrammar

variable {c : Char} {code : Nat} {chars : List Char}

namespace JsonValue

/-- No double is part of the value. -/
inductive NoReal : JsonValue → Prop
  | leaf {value : JsonValue} : value.isArray = false → value.isObject = false →
      (∀ bits, value ≠ real bits) → NoReal value
  | array {items : List JsonValue} : (∀ x ∈ items, NoReal x) → NoReal (array items)
  | object {members : List (String × JsonValue)} : (∀ m ∈ members, NoReal m.2) →
      NoReal (object members)

section

variable (reals : RealText) (indent : Nat)

mutual

/-- The identified integers are printed alike. -/
theorem dumpInto_canonical (depth : Nat) :
    ∀ value : JsonValue, value.canonical.dumpInto reals indent depth =
      value.dumpInto reals indent depth
  | null | bool _ | uint _ | real _ | string _ => rfl
  | int (.ofNat _) => rfl
  | int (.negSucc _) => rfl
  | array [] => rfl
  | array (x :: xs) => by
    rw [canonical, canonicalItems, dumpInto, dumpInto, ← canonicalItems,
      dumpItems_canonicalItems depth true (x :: xs)]
  | object [] => rfl
  | object ((key, value) :: ms) => by
    rw [canonical, canonicalMembers, dumpInto, dumpInto, ← canonicalMembers,
      dumpMembers_canonicalMembers depth true ((key, value) :: ms)]

theorem dumpItems_canonicalItems (depth : Nat) (first : Bool) :
    ∀ items, dumpItems reals indent depth first (canonicalItems items) =
      dumpItems reals indent depth first items
  | [] => rfl
  | x :: rest => by
    rw [canonicalItems, dumpItems, dumpItems, dumpInto_canonical (depth + 1) x,
      dumpItems_canonicalItems depth false rest]

theorem dumpMembers_canonicalMembers (depth : Nat) (first : Bool) :
    ∀ members, dumpMembers reals indent depth first (canonicalMembers members) =
      dumpMembers reals indent depth first members
  | [] => rfl
  | (key, value) :: rest => by
    rw [canonicalMembers, dumpMembers, dumpMembers, dumpInto_canonical (depth + 1) value,
      dumpMembers_canonicalMembers depth false rest]

end

end

/-! ### What is written is made of bytes -/

section

variable {reals : RealText} {indent depth : Nat}

theorem allBytes_escapeChar (hc : c.toNat < 256) : AllBytes (escapeChar c) := by
  have hhex : ∀ n : Fin 0x20, (Nat.digitChar (n / 16)).toNat < 256 ∧
      (Nat.digitChar (n % 16)).toNat < 256 := by
    decide
  unfold escapeChar
  split_ifs with hquote hback hb hf hn hr ht hcontrol
  all_goals try simp [AllBytes, hc]
  exact hhex ⟨c.toNat, hcontrol⟩

theorem allBytes_appendEscaped {text : String} (h : IsBytes text) :
    AllBytes (appendEscaped text) := by
  refine .cons (by decide) (.append (fun c hc => ?_) (by simp [AllBytes]))
  obtain ⟨d, hd, hc⟩ := List.mem_flatMap.mp hc
  exact allBytes_escapeChar (h d hd) c hc

theorem allBytes_toDigits (n : Nat) : AllBytes (Nat.toDigits 10 n) := by
  intro c hc
  have hdigit := JsonText.isDigit_toDigits c hc
  simp only [Char.isDigit, Bool.and_eq_true, decide_eq_true_iff] at hdigit
  exact Nat.lt_of_le_of_lt (UInt32.le_iff_toNat_le.mp hdigit.2) (by decide)

theorem allBytes_lineBreak (indent depth : Nat) : AllBytes (lineBreak indent depth) := by
  intro c hc
  have hspace := JsonText.isSpace_lineBreak indent depth c hc
  simp only [JsonText.isSpace, Bool.or_eq_true, beq_iff_eq] at hspace
  rcases hspace with ((rfl | rfl) | rfl) | rfl <;> decide

theorem allBytes_dumpItems {items : List JsonValue}
    (h : ∀ x ∈ items, AllBytes (x.dumpInto reals indent (depth + 1))) (first : Bool) :
    AllBytes (dumpItems reals indent depth first items) := by
  induction items generalizing first with
  | nil =>
    intro c hc
    cases hc
  | cons x items ih =>
    rw [dumpItems]
    refine .append (.append (.append ?_ (allBytes_lineBreak _ _)) (h x List.mem_cons_self))
      (ih (fun y hy => h y (List.mem_cons_of_mem x hy)) false)
    cases first <;> simp [AllBytes]

theorem allBytes_dumpMembers {members : List (String × JsonValue)}
    (hkeys : ∀ m ∈ members, IsBytes m.1)
    (h : ∀ m ∈ members, AllBytes (m.2.dumpInto reals indent (depth + 1))) (first : Bool) :
    AllBytes (dumpMembers reals indent depth first members) := by
  induction members generalizing first with
  | nil =>
    intro c hc
    cases hc
  | cons m members ih =>
    obtain ⟨key, value⟩ := m
    rw [dumpMembers]
    refine .append (.append (.append (.append (.append ?_ (allBytes_lineBreak _ _))
      (allBytes_appendEscaped (hkeys _ List.mem_cons_self))) ?_) (h _ List.mem_cons_self))
      (ih (fun m hm => hkeys m (List.mem_cons_of_mem _ hm))
        (fun m hm => h m (List.mem_cons_of_mem _ hm)) false)
    · cases first <;> simp [AllBytes]
    · split_ifs <;> simp [AllBytes]

/-- The text of a plain value is made of bytes. -/
theorem allBytes_dumpInto {value : JsonValue} (hv : value.Plain) :
    AllBytes (value.dumpInto reals indent depth) := by
  induction hv generalizing depth with
  | null => simp [dumpInto, AllBytes]
  | bool value => cases value <;> simp [dumpInto, AllBytes]
  | @int value _ _ =>
    cases value with
    | ofNat n =>
      rw [Int.ofNat_eq_natCast, JsonText.dumpInto_nonneg]
      exact allBytes_toDigits n
    | negSucc n =>
      rw [JsonText.dumpInto_negative]
      exact .cons (by decide) (allBytes_toDigits _)
  | uint _ =>
    rw [dumpInto, JsonText.toList_toString]
    exact allBytes_toDigits _
  | string htext => exact allBytes_appendEscaped htext
  | @array items _ ih =>
    cases items with
    | nil => simp [dumpInto, AllBytes]
    | cons x items =>
      rw [dumpInto]
      exact .cons (by decide) (.append (.append
        (allBytes_dumpItems (fun y hy => ih y hy) true) (allBytes_lineBreak _ _))
        (by simp [AllBytes]))
  | @object members _ hkeys _ ih =>
    cases members with
    | nil => simp [dumpInto, AllBytes]
    | cons m members =>
      rw [dumpInto]
      exact .cons (by decide) (.append (.append
        (allBytes_dumpMembers hkeys (fun m hm => ih m hm) true) (allBytes_lineBreak _ _))
        (by simp [AllBytes]))

end

end JsonValue

/-! ### What a text denotes is made of bytes -/

namespace JsonGrammar

variable {reals : RealText} {text : List Char}

theorem hexValue_lt {n : Nat} (h : hexValue c = some n) : n < 16 := by
  unfold hexValue at h
  split_ifs at h with hdigit hlower hupper
  · cases h
    have hle : c.toNat ≤ '9'.toNat := hdigit.2
    have hnine : '9'.toNat - '0'.toNat < 16 := by decide
    omega
  · cases h
    have hle : c.toNat ≤ 'f'.toNat := hlower.2
    have hf : 'f'.toNat - 'a'.toNat + 10 < 16 := by decide
    omega
  · cases h
    have hle : c.toNat ≤ 'F'.toNat := hupper.2
    have hf : 'F'.toNat - 'A'.toNat + 10 < 16 := by decide
    omega

theorem hex4_spec {digits : List Char} (h : hex4 digits = some code) :
    digits.length = 4 ∧ code < 0x10000 := by
  match digits, h with
  | [a, b, c, d], h =>
    simp only [hex4, Option.bind_eq_bind, Option.bind_eq_some_iff, Option.pure_def,
      Option.some.injEq] at h
    obtain ⟨na, ha, nb, hb, nc, hc, nd, hd, rfl⟩ := h
    have hla := hexValue_lt ha
    have hlb := hexValue_lt hb
    have hlc := hexValue_lt hc
    have hld := hexValue_lt hd
    exact ⟨rfl, by omega⟩

theorem toNat_ofNat {n : Nat} (h : n < 0xd800) : (Char.ofNat n).toNat = n := by
  unfold Char.ofNat
  rw [dif_pos (Or.inl h)]
  rfl

/-- A byte of a longer encoding is none of the ASCII characters. -/
theorem toNat_ofNat_or {high low : Nat} (hmin : 0x80 ≤ high) (hhigh : high < 2 ^ 8)
    (hlow : low < 2 ^ 8) :
    0x80 ≤ (Char.ofNat (high ||| low)).toNat ∧ (Char.ofNat (high ||| low)).toNat < 256 := by
  have hlt : high ||| low < 2 ^ 8 := Nat.or_lt_two_pow hhigh hlow
  have hle : high ≤ high ||| low := Nat.left_le_or
  rw [toNat_ofNat (by omega)]
  omega

theorem and_lt (n : Nat) : n &&& 0x3f < 2 ^ 8 :=
  Nat.lt_of_le_of_lt Nat.and_le_right (by decide)

/-- A code point beyond ASCII is encoded in at most four bytes beyond ASCII. -/
theorem appendUtf8_spec (hmin : 0x80 ≤ code) (hmax : code < 0x110000) :
    (∀ c ∈ appendUtf8 code, 0x80 ≤ c.toNat ∧ c.toNat < 256) ∧ (appendUtf8 code).length ≤ 4 := by
  have hbyte : ∀ n, 0x80 ≤ (Char.ofNat (0x80 ||| n &&& 0x3f)).toNat ∧
      (Char.ofNat (0x80 ||| n &&& 0x3f)).toNat < 256 :=
    fun n => toNat_ofNat_or (by decide) (by decide) (and_lt n)
  have hshift : ∀ k, code < 2 ^ (k + 8) → code >>> k < 2 ^ 8 := by
    intro k hk
    rw [Nat.shiftRight_eq_div_pow, Nat.div_lt_iff_lt_mul (Nat.two_pow_pos k), Nat.mul_comm,
      ← Nat.pow_add]
    exact hk
  unfold appendUtf8
  rw [if_neg (Nat.not_lt.mpr hmin)]
  split_ifs with htwo hthree
  · refine ⟨?_, by simp⟩
    simp only [List.forall_mem_cons, List.not_mem_nil, false_implies, implies_true, and_true]
    exact ⟨toNat_ofNat_or (by decide) (by decide) (hshift 6 (by omega)), hbyte _⟩
  · refine ⟨?_, by simp⟩
    simp only [List.forall_mem_cons, List.not_mem_nil, false_implies, implies_true, and_true]
    exact ⟨toNat_ofNat_or (by decide) (by decide) (hshift 12 (by omega)), hbyte _, hbyte _⟩
  · refine ⟨?_, by simp⟩
    simp only [List.forall_mem_cons, List.not_mem_nil, false_implies, implies_true, and_true]
    exact ⟨toNat_ofNat_or (by decide) (by decide) (hshift 18 (by omega)), hbyte _, hbyte _, hbyte _⟩

theorem appendUtf8_ascii (h : code < 0x80) : appendUtf8 code = [Char.ofNat code] :=
  if_pos h

/-- Escaping lengthens a byte to at most six characters. -/
theorem length_escapeChar_le (c : Char) : (JsonValue.escapeChar c).length ≤ 6 := by
  unfold JsonValue.escapeChar
  split_ifs <;> simp

/-- A byte beyond ASCII is not escaped. -/
theorem escapeChar_high (h : 0x80 ≤ c.toNat) : JsonValue.escapeChar c = [c] := by
  have hne : ∀ d : Char, d.toNat < 0x80 → c ≠ d := by
    rintro d hd rfl
    omega
  unfold JsonValue.escapeChar
  rw [if_neg (hne _ (by decide)), if_neg (hne _ (by decide)), if_neg (hne _ (by decide)),
    if_neg (hne _ (by decide)), if_neg (hne _ (by decide)), if_neg (hne _ (by decide)),
    if_neg (hne _ (by decide)), if_neg (by omega)]

/-- A code point is printed in at most six characters. -/
theorem length_escaped_appendUtf8 (h : code < 0x110000) :
    ((appendUtf8 code).flatMap JsonValue.escapeChar).length ≤ 6 := by
  by_cases hascii : code < 0x80
  · rw [appendUtf8_ascii hascii, List.flatMap_singleton]
    exact length_escapeChar_le _
  · obtain ⟨hhigh, hlen⟩ := appendUtf8_spec (Nat.not_lt.mp hascii) h
    have hsame : (appendUtf8 code).flatMap JsonValue.escapeChar = appendUtf8 code := by
      conv_rhs => rw [← List.flatMap_singleton' (appendUtf8 code)]
      exact List.flatMap_congr (fun c hc => escapeChar_high (hhigh c hc).1)
    rw [hsame]
    omega

theorem pair_lt {high low : Nat} (hhigh : IsHigh high) (hlow : IsLow low) :
    0x10000 + (high - 0xd800) * 0x400 + (low - 0xdc00) < 0x110000 := by
  obtain ⟨-, hhigh⟩ := hhigh
  obtain ⟨-, hlow⟩ := hlow
  omega

/-- A character of a string denotes bytes. -/
theorem StringChar.bytes {char bytes : List Char} (h : StringChar char bytes)
    (hchar : AllBytes char) : AllBytes bytes := by
  have hcode : ∀ code, code < 0x110000 → AllBytes (appendUtf8 code) := by
    intro code hcode
    by_cases hascii : code < 0x80
    · rw [appendUtf8_ascii hascii]
      intro c hc
      rw [List.mem_singleton.mp hc, toNat_ofNat (by omega)]
      omega
    · intro c hc
      exact ((appendUtf8_spec (Nat.not_lt.mp hascii) hcode).1 c hc).2
  cases h with
  | unescaped => exact hchar
  | escape hescape =>
    have hall : ∀ p ∈ simpleEscapes, p.2.toNat < 256 := by decide
    intro d hd
    rw [List.mem_singleton.mp hd]
    exact hall _ hescape
  | unicode hdigits => exact hcode _ ((hex4_spec hdigits).2.trans (by decide))
  | pair _ _ hhigh hlow => exact hcode _ (pair_lt hhigh hlow)

/-- A character of a string is printed no longer than it was written. -/
theorem StringChar.length_le {char bytes : List Char} (h : StringChar char bytes) :
    (bytes.flatMap JsonValue.escapeChar).length ≤ char.length := by
  cases h with
  | @unescaped c hcontrol hquote hback =>
    have hne : ∀ d : Char, d.toNat < 0x20 → c ≠ d := by
      rintro d hd rfl
      omega
    rw [List.flatMap_singleton, JsonValue.escapeChar, if_neg hquote, if_neg hback,
      if_neg (hne _ (by decide)), if_neg (hne _ (by decide)), if_neg (hne _ (by decide)),
      if_neg (hne _ (by decide)), if_neg (hne _ (by decide)), if_neg (by omega)]
  | escape hescape =>
    have hall : ∀ p ∈ simpleEscapes, (JsonValue.escapeChar p.2).length ≤ 2 := by decide
    rw [List.flatMap_singleton]
    exact hall _ hescape
  | unicode hdigits =>
    obtain ⟨hlen, hlt⟩ := hex4_spec hdigits
    have hle := length_escaped_appendUtf8 (hlt.trans (by decide : 0x10000 < 0x110000))
    rw [List.length_cons, List.length_cons, hlen]
    exact hle
  | pair hdigits hdigits' hhigh hlow =>
    have hlen := (hex4_spec hdigits).1
    have hle := length_escaped_appendUtf8 (pair_lt hhigh hlow)
    rw [List.length_cons, List.length_cons, List.length_append, hlen]
    exact hle.trans (by omega)

theorem Chars.bytes {bytes : List Char} (h : Chars chars bytes) (hchars : AllBytes chars) :
    AllBytes bytes := by
  induction h with
  | nil => exact hchars
  | cons hchar _ ih =>
    intro c hc
    rcases List.mem_append.mp hc with hc | hc
    · exact hchar.bytes hchars.append_left c hc
    · exact ih hchars.append_right c hc

theorem Chars.length_le {bytes : List Char} (h : Chars chars bytes) :
    (bytes.flatMap JsonValue.escapeChar).length ≤ chars.length := by
  induction h with
  | nil => exact Nat.le_refl 0
  | cons hchar _ ih =>
    rw [List.flatMap_append, List.length_append, List.length_append]
    exact Nat.add_le_add hchar.length_le ih

/-- The text of a string is printed no longer than it was written. -/
theorem Chars.length_appendEscaped_le {bytes : List Char} (h : Chars chars bytes) :
    (JsonValue.appendEscaped (String.ofList bytes)).length ≤ chars.length + 2 := by
  rw [JsonValue.appendEscaped, String.toList_ofList, List.length_cons, List.length_append]
  exact Nat.add_le_add_right h.length_le 2

/-! ### Numbers -/

theorem ofDigitChars_lt {digits : List Char} (h : ∀ c ∈ digits, c.isDigit = true) (value : Nat) :
    Nat.ofDigitChars 10 digits value < (value + 1) * 10 ^ digits.length := by
  induction digits generalizing value with
  | nil => simp
  | cons c digits ih =>
    have hdigit : c.toNat ≤ '9'.toNat := (Char.isDigit_iff_toNat.mp (h c List.mem_cons_self)).2
    have hten : '9'.toNat - '0'.toNat = 9 := by decide
    rw [Nat.ofDigitChars_cons, List.length_cons, Nat.pow_succ, Nat.mul_comm (10 ^ _),
      ← Nat.mul_assoc]
    refine lt_of_lt_of_le (ih (fun d hd => h d (List.mem_cons_of_mem _ hd)) _) ?_
    refine Nat.mul_le_mul_right _ ?_
    omega

/-- A number is printed with no more digits than it was written with. -/
theorem length_toDigits_le {int : List Char} (h : IntPart int) :
    (Nat.toDigits 10 (Nat.ofDigitChars 10 int 0)).length ≤ int.length := by
  have hdigits : ∀ c ∈ int, c.isDigit = true := by
    cases h with
    | zero => exact List.forall_mem_singleton.mpr rfl
    | positive hdigit _ hrest => exact List.forall_mem_cons.mpr ⟨hdigit, hrest⟩
  have hpos : 0 < int.length := by
    cases h <;> exact Nat.succ_pos _
  have hlt := ofDigitChars_lt hdigits 0
  rw [Nat.zero_add, Nat.one_mul] at hlt
  exact (Nat.length_toDigits_le_iff (by decide) hpos).mpr hlt

theorem NoReal.ne_real {bits : UInt64} (h : (JsonValue.real bits).NoReal) : False := by
  cases h with
  | leaf _ _ hne => exact hne bits rfl

theorem plain_number {n : Number} (hn : n.WellFormed) (hreal : (n.value reals).NoReal) :
    (n.value reals).Plain ∧
      ∀ depth, ((n.value reals).dumpInto reals 0 depth).length ≤ n.text.length := by
  rw [Number.value] at hreal ⊢
  cases hinteger : n.integer with
  | none =>
    rw [hinteger] at hreal
    exact (NoReal.ne_real hreal).elim
  | some value =>
    rw [Option.getD_some]
    rw [Number.integer] at hinteger
    split_ifs at hinteger with hempty
    have hdigits := length_toDigits_le hn.int
    have htext : n.text.length = (if n.minus then ['-'] else []).length + n.int.length := by
      rw [Number.text, hempty.1, hempty.2, List.append_nil, List.append_nil, List.length_append]
    rw [htext]
    simp only [fromChars] at hinteger
    split_ifs at hinteger with hminus hmin hmax
    · cases hinteger
      refine ⟨.int hmin (by unfold i64Max; omega), fun depth => ?_⟩
      rw [if_pos hminus]
      cases hvalue : Nat.ofDigitChars 10 n.int 0 with
      | zero =>
        have hzero : (JsonValue.int (-(0 : Nat))).dumpInto reals 0 depth = ['0'] := rfl
        rw [hzero]
        simp
      | succ value =>
        rw [hvalue] at hdigits
        have hnegative : -((value + 1 : Nat) : Int) = Int.negSucc value := rfl
        rw [hnegative, dumpInto_negative, List.length_cons, Nat.add_comm]
        exact Nat.add_le_add_left hdigits 1
    · cases hinteger
      refine ⟨.uint hmax, fun depth => ?_⟩
      rw [if_neg hminus, JsonValue.dumpInto, toList_toString]
      exact hdigits.trans (Nat.le_add_left _ _)

/-! ### Values -/

theorem separated_eq_flatMap (a : List Char) (rest : List (List Char)) :
    separated (a :: rest) = a ++ rest.flatMap (',' :: ·) := by
  induction rest generalizing a with
  | nil => rw [separated_singleton, List.flatMap_nil, List.append_nil]
  | cons b rest ih => rw [separated_cons_cons, ih, List.flatMap_cons, List.cons_append]

/-- Entries that are no longer stay so with the commas between them. -/
theorem length_separated_le {α : Type} {whole body : α → List Char} {x : α} {xs : List α}
    (h : ∀ y ∈ x :: xs, (body y).length ≤ (whole y).length) :
    (body x ++ xs.flatMap (fun y => ',' :: body y)).length ≤
      (separated ((x :: xs).map whole)).length := by
  rw [List.map_cons, separated_eq_flatMap, List.length_append, List.length_append,
    List.flatMap_map, List.length_flatMap, List.length_flatMap]
  refine Nat.add_le_add (h x List.mem_cons_self) (List.sum_le_sum ?_)
  intro y hy
  exact Nat.succ_le_succ (h y (List.mem_cons_of_mem _ hy))

theorem bytes_of_mem_separated {entries : List (List Char)} (h : AllBytes (separated entries))
    {a : List Char} (ha : a ∈ entries) : AllBytes a := by
  cases entries with
  | nil => cases ha
  | cons b rest =>
    rw [separated_eq_flatMap] at h
    rcases List.mem_cons.mp ha with rfl | ha
    · exact h.append_left
    · intro c hc
      exact h.append_right c (List.mem_flatMap.mpr ⟨a, ha, List.mem_cons_of_mem _ hc⟩)

/-- The compact text of a value is not longer than any text of it. -/
theorem length_dumpInto_le {value : JsonValue} (h : Value reals text value) (hreal : value.NoReal)
    (depth : Nat) : (value.dumpInto reals 0 depth).length ≤ text.length := by
  have hcompact : ∀ depth, JsonValue.lineBreak 0 depth = [] := fun _ => if_pos rfl
  induction h generalizing depth with
  | null | true | false => exact Nat.le_refl _
  | number n hn _ => exact (plain_number hn hreal).2 depth
  | string hchars =>
    rw [JsonValue.dumpInto]
    refine hchars.length_appendEscaped_le.trans ?_
    simp
  | emptyArray => simp [JsonValue.dumpInto]
  | @array items hne _ _ ih =>
    obtain ⟨e, es, rfl⟩ := List.exists_cons_of_ne_nil hne
    cases hreal with
    | leaf harray => cases harray
    | array hreal =>
      rw [List.forall_mem_map] at hreal
      have hle : ∀ x ∈ e :: es,
          (itemText reals 0 depth x.value).length ≤ x.whole.length := by
        intro x hx
        have hx := ih x hx (hreal x hx) (depth + 1)
        rw [itemText, Item.whole, hcompact, List.nil_append]
        simp only [List.length_append]
        omega
      have hitems := length_separated_le hle
      rw [List.map_cons, JsonValue.dumpInto, dumpItems_true, List.flatMap_map]
      simp only [List.length_cons, List.length_append] at hitems ⊢
      exact Nat.succ_le_succ (Nat.add_le_add_right hitems 1)
  | emptyObject => simp [JsonValue.dumpInto]
  | @object members hne hformed _ ih =>
    obtain ⟨e, es, rfl⟩ := List.exists_cons_of_ne_nil hne
    cases hreal with
    | leaf _ hobject => cases hobject
    | object hreal =>
      rw [List.forall_mem_map] at hreal
      have hle : ∀ m ∈ e :: es,
          (memberText reals 0 depth m.entry).length ≤ m.whole.length := by
        intro m hm
        have hvalue := ih m hm (hreal m hm) (depth + 1)
        have hkey := (hformed m hm).2.1.length_appendEscaped_le
        rw [memberText, Member.whole, Item.whole, hcompact, List.nil_append, if_pos rfl]
        simp only [Member.entry, List.length_append, List.length_cons, List.length_nil]
          at hvalue hkey ⊢
        omega
      have hmembers := length_separated_le hle
      rw [List.map_cons, JsonValue.dumpInto, dumpMembers_true, List.flatMap_map]
      simp only [List.length_cons, List.length_append] at hmembers ⊢
      exact Nat.succ_le_succ (Nat.add_le_add_right hmembers 1)

/-- What a text of bytes denotes is plain, if it has no double and no key twice. -/
theorem plain_of_value {value : JsonValue} (h : Value reals text value) (hbytes : AllBytes text)
    (hreal : value.NoReal) (hdistinct : value.Distinct) : value.Plain := by
  induction h with
  | null => exact .null
  | true => exact .bool true
  | false => exact .bool false
  | number n hn _ => exact (plain_number hn hreal).1
  | @string chars bytes hchars =>
    refine .string ?_
    rw [JsonValue.IsBytes, String.toList_ofList]
    exact hchars.bytes (hbytes.append_right (a := ['"'])).append_left
  | emptyArray => exact .array (fun _ hx => absurd hx List.not_mem_nil)
  | @array items _ _ _ ih =>
    have hwhole : AllBytes (separated (items.map Item.whole)) :=
      (hbytes.append_right (a := ['['])).append_left
    cases hreal with
    | leaf harray => cases harray
    | array hreal =>
      cases hdistinct with
      | leaf harray => cases harray
      | array hdistinct =>
        rw [List.forall_mem_map] at hreal hdistinct
        refine .array (List.forall_mem_map.mpr fun x hx => ?_)
        have hx' := bytes_of_mem_separated hwhole (List.mem_map_of_mem hx)
        exact ih x hx hx'.append_left.append_right (hreal x hx) (hdistinct x hx)
  | emptyObject =>
    exact .object List.nodup_nil (fun _ hm => absurd hm List.not_mem_nil)
      (fun _ hm => absurd hm List.not_mem_nil)
  | @object members _ hformed _ ih =>
    have hwhole : AllBytes (separated (members.map Member.whole)) :=
      (hbytes.append_right (a := ['{'])).append_left
    cases hreal with
    | leaf _ hobject => cases hobject
    | object hreal =>
      cases hdistinct with
      | leaf _ hobject => cases hobject
      | object hnodup hdistinct =>
        rw [List.forall_mem_map] at hreal hdistinct
        refine .object hnodup (List.forall_mem_map.mpr fun m hm => ?_)
          (List.forall_mem_map.mpr fun m hm => ?_)
        · have hm' := bytes_of_mem_separated hwhole (List.mem_map_of_mem hm)
          rw [JsonValue.IsBytes, Member.entry, String.toList_ofList]
          exact (hformed m hm).2.1.bytes
            (hm'.append_right.append_right (a := ['"'])).append_left
        · have hm' := bytes_of_mem_separated hwhole (List.mem_map_of_mem hm)
          have hitem : AllBytes m.item.whole :=
            (((hm'.append_right.append_right (a := ['"'])).append_right.append_right
              (a := ['"'])).append_right).append_right (a := [':'])
          exact ih m hm hitem.append_left.append_right (hreal m hm) (hdistinct m hm)

end JsonGrammar

/-! ### Whole texts -/

open JsonGrammar

section

variable {reals : RealText} {limits : JsonLimits} {text : List Char} {value : JsonValue}

/-- The compact text of a value that was read is no longer than the text it was read
from. -/
theorem length_dump_le (h : jsonParse reals text limits = .ok value) (hreal : value.NoReal) :
    (value.dump reals).length ≤ limits.maxTotalBytes := by
  obtain ⟨⟨before, body, after, rfl, _, _, hvalue⟩, _, _, htotal⟩ := jsonParse_eq_ok.mp h
  have hle := length_dumpInto_le hvalue hreal 0
  simp only [List.length_append] at htotal
  exact hle.trans (by omega)

/-- A value that was read from bytes is plain, if it has no double. -/
theorem jsonParse_plain (h : jsonParse reals text limits = .ok value) (hbytes : AllBytes text)
    (hreal : value.NoReal) : value.Plain := by
  obtain ⟨⟨before, body, after, rfl, _, _, hvalue⟩, hdistinct, _, _⟩ := jsonParse_eq_ok.mp h
  exact plain_of_value hvalue hbytes.append_left.append_right hreal hdistinct

/-- A text that was read is read again from its print, and printed alike. -/
theorem dump_of_jsonParse (h : jsonParse reals text limits = .ok value) (hbytes : AllBytes text)
    (hreal : value.NoReal) {indent : Nat}
    (hlen : (value.dump reals indent).length ≤ limits.maxTotalBytes) :
    ∃ again, jsonParse reals (value.dump reals indent) limits = .ok again ∧
      again.dump reals indent = value.dump reals indent :=
  ⟨value.canonical, jsonParse_dump (jsonParse_plain h hbytes hreal) (jsonParse_within h) hlen,
    JsonValue.dumpInto_canonical reals indent 0 value⟩

end

end DrainFabric
