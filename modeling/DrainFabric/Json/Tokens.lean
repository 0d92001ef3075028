import Mathlib.Data.List.TakeWhile
import Mathlib.Data.Nat.Digits.Defs
import DrainFabric.Json.Grammar
import DrainFabric.Lib.Except

/-!
# Whitespace, strings and numbers

The parts of the parser below values, in both directions: what a part accepts is a text
of the production it reads, and a text of the production is accepted, whatever follows it
that could not be read as more of it (`EndsNumber`).

* `parseString_sound`, `parseString_complete` — strings, one round a character;
* `parseNumber_sound`, `parseNumber_complete` — numbers, part by part. Only a token of at
  most twenty characters is an integer of 64 bits (`length_of_fromChars`), so the length
  the code looks at makes no difference.
-/

namespace DrainFabric

open Lib JsonText JsonGrammar

variable {c : Char} {code : Nat} {bytes int frac exp : List Char} {value : JsonValue} {n : Number}

namespace JsonText

variable {limits : JsonLimits} {reals : RealText} {text rest : List Char}

/-! ### Whitespace -/

theorem isSpace_iff : isSpace c = true ↔ c = ' ' ∨ c = '\t' ∨ c = '\n' ∨ c = '\r' := by
  simp only [isSpace, Bool.or_eq_true, beq_iff_eq, or_assoc]

/-- What is skipped is whitespace. -/
theorem skipWhitespace_sound (text : List Char) :
    ∃ space, Ws space ∧ text = space ++ skipWhitespace text :=
  ⟨text.takeWhile isSpace, fun _ hc => isSpace_iff.mp (List.mem_takeWhile_imp hc),
    (List.takeWhile_append_dropWhile).symm⟩

theorem skipWhitespace_append {space : List Char} (h : Ws space) (rest : List Char) :
    skipWhitespace (space ++ rest) = skipWhitespace rest :=
  List.dropWhile_append_of_pos (fun c hc => isSpace_iff.mpr (h c hc))

theorem skipWhitespace_cons (h : isSpace c = false) (rest : List Char) :
    skipWhitespace (c :: rest) = c :: rest := by
  rw [skipWhitespace, List.dropWhile_cons, if_neg (by simp [h])]

theorem skipWhitespace_idem (text : List Char) :
    skipWhitespace (skipWhitespace text) = skipWhitespace text := by
  obtain ⟨space, hspace, htext⟩ := skipWhitespace_sound text
  conv_rhs => rw [htext]
  rw [skipWhitespace_append hspace]

theorem consume_eq_some : consume c text = some rest ↔ text = c :: rest := by
  cases text with
  | nil => simp [consume]
  | cons d text =>
    rw [consume, List.cons.injEq]
    split_ifs with h
    · simp [h]
    · simp [h]

/-! ### Strings -/

/-- Four digits, one round of `parse_hex4` each. -/
theorem hexFold_eq_ok {a b d : Char} :
    [a, b, c, d].foldlM hexStep 0 = .ok code ↔ hex4 [a, b, c, d] = some code := by
  simp only [List.foldlM_cons, List.foldlM_nil, hexStep, hex4]
  cases hexValue a <;> cases hexValue b <;> cases hexValue c <;> cases hexValue d <;>
    simp [orFail, fail, bind, Except.bind, pure, Except.pure]

theorem parseHex4_eq_ok :
    parseHex4 text = .ok (code, rest) ↔
      ∃ digits, hex4 digits = some code ∧ text = digits ++ rest := by
  simp only [parseHex4, bind_eq_ok, pure_eq_ok, rejectIf_eq_ok, Prod.mk.injEq]
  constructor
  · rintro ⟨_, hlen, value, hvalue, rfl, rfl⟩
    rcases text with _ | ⟨a, _ | ⟨b, _ | ⟨c, _ | ⟨d, rest⟩⟩⟩⟩
    case cons.cons.cons.cons => exact ⟨[a, b, c, d], hexFold_eq_ok.mp hvalue, rfl⟩
    all_goals exact absurd (by simp) hlen
  · rintro ⟨digits, hdigits, rfl⟩
    rcases digits with _ | ⟨a, _ | ⟨b, _ | ⟨c, _ | ⟨d, _ | ⟨e, digits⟩⟩⟩⟩⟩
    case cons.cons.cons.cons.nil =>
      exact ⟨(), by simp, code, hexFold_eq_ok.mpr hdigits, rfl, rfl⟩
    all_goals cases hdigits

/-- The code point of an escape: one that is no surrogate, or two halves. -/
theorem parseCodePoint_eq_ok :
    parseCodePoint text = .ok (code, rest) ↔
      (∃ digits, hex4 digits = some code ∧ ¬ IsHigh code ∧ ¬ IsLow code ∧ text = digits ++ rest) ∨
        ∃ digits digits' high low, hex4 digits = some high ∧ hex4 digits' = some low ∧
          IsHigh high ∧ IsLow low ∧ text = digits ++ '\\' :: 'u' :: (digits' ++ rest) ∧
          code = 0x10000 + (high - 0xd800) * 0x400 + (low - 0xdc00) := by
  simp only [parseCodePoint, IsHigh, IsLow, bind_eq_ok, Prod.exists, parseHex4_eq_ok]
  constructor
  · rintro ⟨high, middle, ⟨digits, hdigits, rfl⟩, h⟩
    split_ifs at h with hhigh
    · simp only [bind_eq_ok, pure_eq_ok, rejectIf_eq_ok, not_not, Prod.mk.injEq, Prod.exists,
        parseHex4_eq_ok, not_or, Nat.not_lt] at h
      obtain ⟨_, hmark, low, last, ⟨digits', hdigits', hmiddle⟩, _, hlow, rfl, rfl⟩ := h
      refine Or.inr ⟨digits, digits', high, low, hdigits, hdigits', hhigh, hlow, ?_, ?_⟩
      · rw [← List.take_append_drop 2 middle, hmark, hmiddle]
        rfl
      · rw [Nat.shiftLeft_eq]
    · simp only [bind_eq_ok, pure_eq_ok, rejectIf_eq_ok, Prod.mk.injEq] at h
      obtain ⟨_, hlow, rfl, rfl⟩ := h
      exact Or.inl ⟨digits, hdigits, hhigh, hlow, rfl⟩
  · rintro (⟨digits, hdigits, hhigh, hlow, rfl⟩ |
      ⟨digits, digits', high, low, hdigits, hdigits', hhigh, hlow, rfl, hcode⟩)
    · refine ⟨code, rest, ⟨digits, hdigits, rfl⟩, ?_⟩
      rw [if_neg hhigh, rejectIf, if_neg hlow]
      rfl
    · refine ⟨high, _, ⟨digits, hdigits, rfl⟩, ?_⟩
      rw [if_pos hhigh]
      simp only [bind_eq_ok, pure_eq_ok, rejectIf_eq_ok, not_not, Prod.mk.injEq, Prod.exists,
        parseHex4_eq_ok, not_or, Nat.not_lt]
      exact ⟨(), rfl, low, rest, ⟨digits', hdigits', rfl⟩, (), hlow,
        by rw [hcode, Nat.shiftLeft_eq], rfl⟩

/-- What an escape stands for, after its backslash. -/
theorem parseEscape_eq_ok :
    parseEscape text = .ok (bytes, rest) ↔
      (∃ c byte, (c, byte) ∈ simpleEscapes ∧ text = c :: rest ∧ bytes = [byte]) ∨
        ∃ code after, text = 'u' :: after ∧ parseCodePoint after = .ok (code, rest) ∧
          bytes = appendUtf8 code := by
  constructor
  · intro h
    unfold parseEscape at h
    split at h
    case h_10 =>
      simp only [bind_eq_ok, pure_eq_ok, Prod.mk.injEq] at h
      obtain ⟨⟨code, last⟩, hcode, rfl, rfl⟩ := h
      exact Or.inr ⟨code, _, rfl, hcode, rfl⟩
    case h_1 | h_11 => cases h
    all_goals
      cases h
      exact Or.inl ⟨_, _, by decide, rfl, rfl⟩
  · rintro (⟨c, byte, hescape, rfl, rfl⟩ | ⟨code, after, rfl, hcode, rfl⟩)
    · simp only [simpleEscapes, List.mem_cons, List.not_mem_nil, or_false, Prod.mk.injEq] at hescape
      rcases hescape with ⟨rfl, rfl⟩ | ⟨rfl, rfl⟩ | ⟨rfl, rfl⟩ | ⟨rfl, rfl⟩ | ⟨rfl, rfl⟩ |
        ⟨rfl, rfl⟩ | ⟨rfl, rfl⟩ | ⟨rfl, rfl⟩ <;> rfl
    · show (parseCodePoint after >>= _) = _
      rw [hcode]
      rfl

/-- A backslash and what follows it are one character of the grammar. -/
theorem stringChar_escape_iff :
    parseEscape text = .ok (bytes, rest) ↔
      ∃ escape, StringChar ('\\' :: escape) bytes ∧ text = escape ++ rest := by
  rw [parseEscape_eq_ok]
  constructor
  · rintro (⟨c, byte, hescape, rfl, rfl⟩ | ⟨code, after, rfl, hcode, rfl⟩)
    · exact ⟨[c], .escape hescape, rfl⟩
    · rcases parseCodePoint_eq_ok.mp hcode with ⟨digits, hdigits, hhigh, hlow, rfl⟩ |
        ⟨digits, digits', high, low, hdigits, hdigits', hhigh, hlow, rfl, hpair⟩
      · exact ⟨'u' :: digits, .unicode hdigits hhigh hlow, rfl⟩
      · rw [hpair]
        exact ⟨'u' :: (digits ++ '\\' :: 'u' :: digits'), .pair hdigits hdigits' hhigh hlow,
          by simp⟩
  · rintro ⟨escape, hchar, rfl⟩
    cases hchar with
    | unescaped _ _ hback => exact absurd rfl hback
    | escape hescape => exact Or.inl ⟨_, _, hescape, rfl, rfl⟩
    | unicode hdigits hhigh hlow =>
      exact Or.inr ⟨_, _, rfl, parseCodePoint_eq_ok.mpr
        (Or.inl ⟨_, hdigits, hhigh, hlow, rfl⟩), rfl⟩
    | pair hdigits hdigits' hhigh hlow =>
      exact Or.inr ⟨_, _, rfl, parseCodePoint_eq_ok.mpr
        (Or.inr ⟨_, _, _, _, hdigits, hdigits', hhigh, hlow, by simp, rfl⟩), rfl⟩

/-- One round ends the string, or reads one character of the grammar within the limit. -/
theorem stringRound_eq_ok {out : List Char} {next : List Char × List Char ⊕ List Char × List Char} :
    stringRound limits (out, text) = .ok next ↔
      (∃ rest, text = '"' :: rest ∧ next = .inr (out, rest)) ∨
        ∃ char bytes rest, StringChar char bytes ∧ text = char ++ rest ∧
          (out ++ bytes).length ≤ limits.maxStringBytes ∧ next = .inl (out ++ bytes, rest) := by
  constructor
  · intro h
    cases text with
    | nil => cases h
    | cons c text =>
      rw [stringRound] at h
      split_ifs at h with hquote hcontrol hplain
      · cases h
        exact Or.inl ⟨text, by rw [hquote], rfl⟩
      · cases h
      · simp only [bind_eq_ok, pure_eq_ok, rejectIf_eq_ok] at h
        obtain ⟨_, hroom, rfl⟩ := h
        refine Or.inr ⟨[c], [c], text, .unescaped (Nat.not_lt.mp hcontrol) hquote hplain, rfl,
          ?_, rfl⟩
        rw [List.length_append, List.length_singleton]
        omega
      · simp only [bind_eq_ok, pure_eq_ok, rejectIf_eq_ok] at h
        obtain ⟨⟨bytes, last⟩, hescape, _, hroom, rfl⟩ := h
        obtain ⟨escape, hchar, rfl⟩ := stringChar_escape_iff.mp hescape
        rw [not_not.mp hplain]
        exact Or.inr ⟨_, bytes, last, hchar, rfl, Nat.not_lt.mp hroom, rfl⟩
  · rintro (⟨rest, rfl, rfl⟩ | ⟨char, bytes, rest, hchar, rfl, hroom, rfl⟩)
    · rfl
    · have hescaped : ∀ escape, char = '\\' :: escape →
          stringRound limits (out, char ++ rest) = .ok (.inl (out ++ bytes, rest)) := by
        rintro escape rfl
        show (parseEscape (escape ++ rest) >>= _) = _
        rw [stringChar_escape_iff.mpr ⟨escape, hchar, rfl⟩]
        show (rejectIf ((out ++ bytes).length > limits.maxStringBytes) _ _ >>= _) = _
        rw [rejectIf, if_neg (Nat.not_lt.mpr hroom)]
        rfl
      cases hchar with
      | @unescaped c hcontrol hquote hback =>
        have hlen : ¬ out.length ≥ limits.maxStringBytes := by
          rw [List.length_append, List.length_singleton] at hroom
          omega
        rw [List.singleton_append, stringRound, if_neg hquote, if_neg (Nat.not_lt.mpr hcontrol),
          if_pos hback, rejectIf, if_neg hlen]
        rfl
      | escape => exact hescaped _ rfl
      | unicode => exact hescaped _ rfl
      | pair => exact hescaped _ rfl

/-- A string that was read is a string of the grammar, and not too long. -/
theorem parseString_sound {s : String} (h : parseString limits text = .ok (s, rest)) :
    ∃ chars bytes, Chars chars bytes ∧ text = chars ++ '"' :: rest ∧ s = String.ofList bytes ∧
      bytes.length ≤ limits.maxStringBytes := by
  simp only [parseString, bind_eq_ok, pure_eq_ok, Prod.mk.injEq] at h
  obtain ⟨⟨bytes, last⟩, hloop, rfl, rfl⟩ := h
  -- The part of the text before the reader stands for the bytes read so far.
  have hkeep : ∀ s s' : List Char × List Char,
      (∃ chars, Chars chars s.1 ∧ text = chars ++ s.2 ∧ s.1.length ≤ limits.maxStringBytes) →
      stringRound limits s = .ok (.inl s') →
      ∃ chars, Chars chars s'.1 ∧ text = chars ++ s'.2 ∧
        s'.1.length ≤ limits.maxStringBytes := by
    rintro ⟨out, left⟩ s' ⟨chars, hchars, htext, -⟩ hround
    rcases stringRound_eq_ok.mp hround with ⟨_, -, hdone⟩ | ⟨char, new, after, hchar, hleft, hroom, hnext⟩
    · cases hdone
    · cases hnext
      refine ⟨chars ++ char, hchars.append ?_, ?_, hroom⟩
      · simpa using Chars.cons hchar .nil
      · rw [htext, hleft, List.append_assoc]
  obtain ⟨⟨out, left⟩, ⟨chars, hchars, htext, hroom⟩, hleave⟩ :=
    loop_invariant hkeep ⟨[], .nil, rfl, Nat.zero_le _⟩ hloop
  rcases stringRound_eq_ok.mp hleave with ⟨after, hleft, hdone⟩ | ⟨_, _, _, -, -, -, hnext⟩
  · cases hdone
    exact ⟨chars, bytes, hchars, by rw [htext, hleft], rfl, hroom⟩
  · cases hnext

theorem loop_stringRound {chars : List Char} (h : Chars chars bytes) {out : List Char}
    (hroom : (out ++ bytes).length ≤ limits.maxStringBytes) {rounds : Nat}
    (hrounds : (chars ++ '"' :: rest).length < rounds) :
    loop (stringRound limits) outOfRounds rounds (out, chars ++ '"' :: rest) =
      .ok (out ++ bytes, rest) := by
  induction h generalizing out rounds with
  | nil =>
    obtain ⟨rounds, rfl⟩ : ∃ k, rounds = k + 1 := ⟨rounds - 1, by omega⟩
    rw [List.append_nil]
    exact loop_leave rfl
  | @cons char new chars bytes hchar _ ih =>
    obtain ⟨rounds, rfl⟩ : ∃ k, rounds = k + 1 := ⟨rounds - 1, by omega⟩
    have hfirst : (out ++ new).length ≤ limits.maxStringBytes := by
      simp only [List.length_append] at hroom ⊢
      omega
    have hround : stringRound limits (out, char ++ (chars ++ '"' :: rest)) =
        .ok (.inl (out ++ new, chars ++ '"' :: rest)) :=
      stringRound_eq_ok.mpr (Or.inr ⟨char, new, _, hchar, rfl, hfirst, rfl⟩)
    have hlen := List.length_pos_iff.mpr hchar.ne_nil
    rw [List.append_assoc, loop_next hround, ih, List.append_assoc]
    · rwa [List.append_assoc]
    · simp only [List.length_append] at hrounds ⊢
      omega

/-- A string of the grammar that is not too long is read. -/
theorem parseString_complete {chars : List Char} (h : Chars chars bytes)
    (hroom : bytes.length ≤ limits.maxStringBytes) :
    parseString limits (chars ++ '"' :: rest) = .ok (String.ofList bytes, rest) := by
  rw [parseString, loop_stringRound h (by rwa [List.nil_append]) (Nat.lt_succ_self _)]
  rfl

/-! ### Numbers -/

/-- What may follow a number. -/
def EndsNumber (rest : List Char) : Prop :=
  ∀ c, rest.head? = some c → c.isDigit = false ∧ c ≠ '.' ∧ c ≠ 'e' ∧ c ≠ 'E'

/-- What may follow digits. -/
def NoDigit (rest : List Char) : Prop := ∀ c, rest.head? = some c → c.isDigit = false

theorem EndsNumber.noDigit (h : EndsNumber rest) : NoDigit rest := fun c hc => (h c hc).1

section

variable {digits : List Char}

theorem takeWhile_digits (hdigits : ∀ c ∈ digits, c.isDigit = true) (hrest : NoDigit rest) :
    (digits ++ rest).takeWhile Char.isDigit = digits := by
  rw [List.takeWhile_append_of_pos hdigits]
  cases rest with
  | nil => exact List.append_nil _
  | cons c rest => rw [List.takeWhile_cons_of_neg (by simp [hrest c rfl]), List.append_nil]

theorem dropWhile_digits (hdigits : ∀ c ∈ digits, c.isDigit = true) (hrest : NoDigit rest) :
    (digits ++ rest).dropWhile Char.isDigit = rest := by
  rw [List.dropWhile_append_of_pos hdigits]
  cases rest with
  | nil => rfl
  | cons c rest => rw [List.dropWhile_cons_of_neg (by simp [hrest c rfl])]

theorem mem_takeWhile_isDigit : ∀ c ∈ text.takeWhile Char.isDigit, c.isDigit = true :=
  fun _ hc => List.mem_takeWhile_imp hc

theorem head_intPart (h : IntPart int) : ∃ c tail, int = c :: tail ∧ c.isDigit = true := by
  cases h with
  | zero => exact ⟨_, _, rfl, by decide⟩
  | positive hdigit => exact ⟨_, _, rfl, hdigit⟩

theorem parseInteger_sound (h : parseInteger text = .ok (digits, rest)) :
    IntPart digits ∧ text = digits ++ rest := by
  cases text with
  | nil => cases h
  | cons c text =>
    rw [parseInteger] at h
    split_ifs at h with hzero hleading hdigit
    · cases h
    · cases h
      exact ⟨.zero, by rw [hzero]; rfl⟩
    · cases h
      refine ⟨?_, List.takeWhile_append_dropWhile.symm⟩
      rw [List.takeWhile_cons_of_pos hdigit]
      exact .positive hdigit hzero mem_takeWhile_isDigit
    · cases h

theorem parseInteger_complete (h : IntPart digits) (hrest : NoDigit rest) :
    parseInteger (digits ++ rest) = .ok (digits, rest) := by
  cases h with
  | zero =>
    have hhead : ¬ rest.head?.any Char.isDigit = true := by
      cases hc : rest.head? with
      | none => simp
      | some c => simp [hrest c hc]
    rw [List.singleton_append, parseInteger, if_pos rfl, if_neg hhead]
  | @positive c tail hdigit hzero htail =>
    have hall : ∀ d ∈ c :: tail, d.isDigit = true := by
      simpa using ⟨hdigit, htail⟩
    rw [List.cons_append, parseInteger, if_neg hzero, if_pos hdigit, ← List.cons_append,
      takeWhile_digits hall hrest, dropWhile_digits hall hrest]

theorem parseDigits_sound {message : String} (h : parseDigits message text = .ok (digits, rest)) :
    Digits digits ∧ text = digits ++ rest := by
  simp only [parseDigits, bind_eq_ok, pure_eq_ok, rejectIf_eq_ok, not_not, Prod.mk.injEq] at h
  obtain ⟨_, hhead, rfl, rfl⟩ := h
  refine ⟨⟨?_, mem_takeWhile_isDigit⟩, List.takeWhile_append_dropWhile.symm⟩
  cases text with
  | nil => cases hhead
  | cons c text =>
    rw [List.takeWhile_cons_of_pos (by simpa using hhead)]
    exact List.cons_ne_nil _ _

theorem parseDigits_complete {message : String} (h : Digits digits) (hrest : NoDigit rest) :
    parseDigits message (digits ++ rest) = .ok (digits, rest) := by
  obtain ⟨hne, hall⟩ := h
  have hhead : (digits ++ rest).head?.any Char.isDigit = true := by
    cases digits with
    | nil => exact absurd rfl hne
    | cons c tail => exact hall c List.mem_cons_self
  rw [parseDigits, rejectIf, if_neg (not_not.mpr hhead), takeWhile_digits hall hrest,
    dropWhile_digits hall hrest]
  rfl

theorem parseFraction_sound (h : parseFraction text = .ok (frac, rest)) :
    FracPart frac ∧ text = frac ++ rest := by
  rw [parseFraction] at h
  split at h
  · cases h
    exact ⟨.none, rfl⟩
  · rename_i after hpoint
    simp only [bind_eq_ok, pure_eq_ok, Prod.mk.injEq] at h
    obtain ⟨⟨digits, last⟩, hparse, rfl, rfl⟩ := h
    obtain ⟨hdigits, rfl⟩ := parseDigits_sound hparse
    exact ⟨.point hdigits, consume_eq_some.mp hpoint⟩

theorem parseFraction_complete (h : FracPart frac) (hrest : NoDigit rest)
    (hpoint : rest.head? ≠ some '.') : parseFraction (frac ++ rest) = .ok (frac, rest) := by
  cases h with
  | none =>
    have hnone : consume '.' rest = none := by
      rw [Option.eq_none_iff_forall_not_mem]
      intro after hafter
      rw [consume_eq_some.mp hafter] at hpoint
      exact hpoint rfl
    rw [List.nil_append, parseFraction, hnone]
  | point hdigits =>
    rw [parseFraction, consume_eq_some.mpr (List.cons_append)]
    show (parseDigits _ (_ ++ rest) >>= _) = _
    rw [parseDigits_complete hdigits hrest]
    rfl

/-- The sign of an exponent, if there is one. -/
def signOf (text : List Char) : List Char :=
  (text.takeWhile (fun c => c == '+' || c == '-')).take 1

theorem signOf_cases (text : List Char) :
    (signOf text = [] ∨ signOf text = ['+'] ∨ signOf text = ['-']) ∧
      text = signOf text ++ text.drop (signOf text).length := by
  cases text with
  | nil => exact ⟨Or.inl rfl, rfl⟩
  | cons c text =>
    by_cases hplus : c = '+'
    · subst hplus
      exact ⟨Or.inr (Or.inl rfl), rfl⟩
    · by_cases hminus : c = '-'
      · subst hminus
        exact ⟨Or.inr (Or.inr rfl), rfl⟩
      · have hnone : signOf (c :: text) = [] := by
          rw [signOf, List.takeWhile_cons_of_neg (by simp [hplus, hminus]), List.take_nil]
        rw [hnone]
        exact ⟨Or.inl rfl, rfl⟩

/-- Digits take no sign with them. -/
theorem signOf_append {sign : List Char} (hsign : sign = [] ∨ sign = ['+'] ∨ sign = ['-'])
    (hdigits : Digits digits) (rest : List Char) : signOf (sign ++ (digits ++ rest)) = sign := by
  rcases hsign with rfl | rfl | rfl
  · obtain ⟨hne, hall⟩ := hdigits
    cases digits with
    | nil => exact absurd rfl hne
    | cons c tail =>
      have hc := hall c List.mem_cons_self
      have hsigns : ¬ (c == '+' || c == '-') = true := by
        rw [Bool.or_eq_true, beq_iff_eq, beq_iff_eq]
        rintro (rfl | rfl) <;> exact absurd hc (by decide)
      have hnone : (c :: (tail ++ rest)).takeWhile (fun c => c == '+' || c == '-') = [] :=
        List.takeWhile_cons_of_neg hsigns
      rw [List.nil_append, List.cons_append, signOf, hnone, List.take_nil]
  · rfl
  · rfl

theorem parseExponent_mark {mark : Char} (hmark : mark = 'e' ∨ mark = 'E') (text : List Char) :
    parseExponent (mark :: text) = (do
      let (digits, rest) ← parseDigits "missing exponent digits in json number"
        (text.drop (signOf text).length)
      return (mark :: (signOf text ++ digits), rest)) := by
  rw [parseExponent, if_pos hmark]
  rfl

theorem parseExponent_sound (h : parseExponent text = .ok (exp, rest)) :
    ExpPart exp ∧ text = exp ++ rest := by
  cases text with
  | nil =>
    cases h
    exact ⟨.none, rfl⟩
  | cons c text =>
    by_cases hmark : c = 'e' ∨ c = 'E'
    · rw [parseExponent_mark hmark] at h
      simp only [bind_eq_ok, pure_eq_ok, Prod.mk.injEq] at h
      obtain ⟨⟨digits, last⟩, hparse, rfl, rfl⟩ := h
      obtain ⟨hdigits, htext⟩ := parseDigits_sound hparse
      obtain ⟨hsign, hsplit⟩ := signOf_cases text
      refine ⟨.mark hmark hsign hdigits, ?_⟩
      rw [List.cons_append, List.append_assoc, ← htext, ← hsplit]
    · rw [parseExponent, if_neg hmark] at h
      cases h
      exact ⟨.none, rfl⟩

theorem parseExponent_complete (h : ExpPart exp) (hrest : EndsNumber rest) :
    parseExponent (exp ++ rest) = .ok (exp, rest) := by
  cases h with
  | none =>
    cases rest with
    | nil => rfl
    | cons c rest =>
      obtain ⟨-, -, he, hE⟩ := hrest c rfl
      rw [List.nil_append, parseExponent, if_neg (not_or.mpr ⟨he, hE⟩)]
  | @mark mark sign digits hmark hsign hdigits =>
    rw [List.cons_append, parseExponent_mark hmark, List.append_assoc,
      signOf_append hsign hdigits, List.drop_left, parseDigits_complete hdigits hrest.noDigit]
    rfl

theorem noDigit_fracPart (h : FracPart frac) (hrest : NoDigit rest) : NoDigit (frac ++ rest) := by
  cases h with
  | none => exact hrest
  | point =>
    intro c hc
    cases hc
    decide

theorem noDigit_expPart (h : ExpPart exp) (hrest : EndsNumber rest) :
    NoDigit (exp ++ rest) ∧ (exp ++ rest).head? ≠ some '.' := by
  cases h with
  | none =>
    refine ⟨hrest.noDigit, fun hpoint => ?_⟩
    exact (hrest '.' hpoint).2.1 rfl
  | @mark mark _ _ hmark =>
    constructor
    · intro c hc
      cases hc
      rcases hmark with rfl | rfl <;> decide
    · intro hpoint
      cases hpoint
      exact absurd hmark (by decide)

/-- A digit more makes a number ten times as large. -/
theorem pow_le_ofDigitChars (digits : List Char) (value : Nat) :
    value * 10 ^ digits.length ≤ Nat.ofDigitChars 10 digits value := by
  induction digits generalizing value with
  | nil => simp
  | cons c digits ih =>
    rw [Nat.ofDigitChars_cons, List.length_cons, Nat.pow_succ, Nat.mul_comm (10 ^ _), ← Nat.mul_assoc]
    refine le_trans ?_ (ih _)
    refine Nat.mul_le_mul_right _ ?_
    omega

/-- An integer without leading zeros is as long as it is large. -/
theorem length_intPart_le (h : IntPart int) {bound : Nat} (hbound : 0 < bound)
    (hlt : Nat.ofDigitChars 10 int 0 < 10 ^ bound) : int.length ≤ bound := by
  cases h with
  | zero => exact hbound
  | @positive c tail hdigit hzero _ =>
    have hfirst : 1 ≤ 10 * 0 + (c.toNat - '0'.toNat) := by
      have hle : '0'.toNat ≤ c.toNat := (Char.isDigit_iff_toNat.mp hdigit).1
      have hne : c.toNat ≠ '0'.toNat := fun heq => hzero (Char.toNat_inj.mp heq)
      omega
    have hle := pow_le_ofDigitChars tail (10 * 0 + (c.toNat - '0'.toNat))
    rw [Nat.ofDigitChars_cons] at hlt
    have hpow : 10 ^ tail.length < 10 ^ bound :=
      (Nat.le_mul_of_pos_left _ hfirst).trans_lt (hle.trans_lt hlt)
    exact (Nat.pow_lt_pow_iff_right (by decide)).mp hpow

/-- Only a short token is an integer of 64 bits, so its length need not be looked at. -/
theorem length_of_fromChars {minus : Bool} (h : IntPart int)
    (hvalue : fromChars minus int = some value) :
    ((if minus then ['-'] else []) ++ int).length ≤ 20 := by
  simp only [fromChars] at hvalue
  split_ifs at hvalue with hminus hmin hmax
  · have hlen : int.length ≤ 19 := by
      refine length_intPart_le h (by decide) ?_
      unfold i64Min at hmin
      omega
    rw [if_pos hminus, List.length_append, List.length_singleton]
    omega
  · have hlen : int.length ≤ 20 := by
      refine length_intPart_le h (by decide) ?_
      unfold u64Max at hmax
      omega
    rwa [if_neg hminus, List.nil_append]

end

/-- The integer the parser tries to read is the one the token is. -/
theorem integer_of_parts (h : n.WellFormed) :
    (if n.frac.isEmpty && n.exp.isEmpty && n.text.length ≤ 20 then fromChars n.minus n.int
      else none) = n.integer := by
  by_cases hparts : n.frac = [] ∧ n.exp = []
  · have hinteger : n.integer = fromChars n.minus n.int := if_pos hparts
    have htext : n.text = (if n.minus then ['-'] else []) ++ n.int := by
      rw [Number.text, hparts.1, hparts.2, List.append_nil, List.append_nil]
    rw [hinteger, hparts.1, hparts.2]
    split_ifs with hshort
    · rfl
    · refine (Option.eq_none_iff_forall_not_mem.mpr fun value hvalue => hshort ?_).symm
      rw [htext]
      simpa using length_of_fromChars h.int hvalue
  · have hinteger : n.integer = none := if_neg hparts
    rw [hinteger, if_neg]
    simp only [Bool.and_eq_true, List.isEmpty_iff]
    exact fun hall => hparts hall.1

/-- How the parser goes on after the parts of a token. -/
theorem parseNumber_of_parts (h : n.WellFormed) (hminus : (consume '-' text).isSome = n.minus)
    (hint : parseInteger ((consume '-' text).getD text) = .ok (n.int, n.frac ++ (n.exp ++ rest)))
    (hfrac : parseFraction (n.frac ++ (n.exp ++ rest)) = .ok (n.frac, n.exp ++ rest))
    (hexp : parseExponent (n.exp ++ rest) = .ok (n.exp, rest)) :
    parseNumber reals text = .ok (value, rest) ↔ n.Finite reals ∧ value = n.value reals := by
  simp only [parseNumber, hint, hfrac, hexp, hminus, ok_bind]
  rw [← Number.text, integer_of_parts h, Number.Finite, Number.value]
  cases n.integer with
  | some integer =>
    simp only [pure_eq_ok, Prod.mk.injEq, and_true, Option.getD_some]
    exact ⟨fun hvalue => ⟨by simp, hvalue.symm⟩, fun hvalue => hvalue.2.symm⟩
  | none =>
    simp only [bind_eq_ok, rejectIf_eq_ok, pure_eq_ok, Prod.mk.injEq, and_true, Option.getD_none,
      Bool.not_eq_false, forall_const]
    rw [exists_const, eq_comm (a := value)]

theorem signed_text {text : List Char} (h : (consume '-' text).getD text = int) :
    text = (if (consume '-' text).isSome then ['-'] else []) ++ int := by
  cases hsign : consume '-' text with
  | none =>
    rw [hsign] at h
    exact h
  | some after =>
    rw [hsign] at h
    rw [consume_eq_some.mp hsign, ← h]
    rfl

/-- A number that was read is a number of the grammar. -/
theorem parseNumber_sound (h : parseNumber reals text = .ok (value, rest)) :
    ∃ n : Number, n.WellFormed ∧ n.Finite reals ∧ value = n.value reals ∧
      text = n.text ++ rest := by
  have hparts := h
  simp only [parseNumber, bind_eq_ok] at hparts
  obtain ⟨⟨int, rest₁⟩, hint, ⟨frac, rest₂⟩, hfrac, ⟨exp, rest₃⟩, hexp, hlast⟩ := hparts
  obtain rfl : rest = rest₃ := by
    split at hlast
    · exact (Prod.mk.inj (pure_eq_ok.mp hlast)).2.symm
    · simp only [bind_eq_ok, pure_eq_ok, Prod.mk.injEq] at hlast
      obtain ⟨_, -, -, hrest⟩ := hlast
      exact hrest.symm
  obtain ⟨hintPart, htext⟩ := parseInteger_sound hint
  obtain ⟨hfracPart, rfl⟩ := parseFraction_sound hfrac
  obtain ⟨hexpPart, rfl⟩ := parseExponent_sound hexp
  let n : Number := { minus := (consume '-' text).isSome, int, frac, exp }
  have hformed : n.WellFormed := ⟨hintPart, hfracPart, hexpPart⟩
  obtain ⟨hfinite, hvalue⟩ := (parseNumber_of_parts hformed rfl hint hfrac hexp).mp h
  refine ⟨n, hformed, hfinite, hvalue, (signed_text htext).trans ?_⟩
  simp only [n, Number.text, List.append_assoc]

theorem fromChars_eq_some {minus : Bool} {digits : List Char}
    (h : fromChars minus digits = some value) :
    (∃ n : Int, value = .int n) ∨ ∃ n : Nat, value = .uint n := by
  simp only [fromChars] at h
  split_ifs at h
  · cases h
    exact Or.inl ⟨_, rfl⟩
  · cases h
    exact Or.inr ⟨_, rfl⟩

/-- A number is an integer or a double. -/
theorem value_number_cases (reals : RealText) (n : Number) :
    (∃ i : Int, n.value reals = .int i) ∨ (∃ u : Nat, n.value reals = .uint u) ∨
      ∃ bits, n.value reals = .real bits := by
  rw [Number.value]
  cases hinteger : n.integer with
  | none => exact Or.inr (Or.inr ⟨_, rfl⟩)
  | some value =>
    rw [Number.integer] at hinteger
    split_ifs at hinteger
    rcases fromChars_eq_some hinteger with h | h
    · exact Or.inl h
    · exact Or.inr (Or.inl h)

/-- A number of the grammar is read, up to what ends it. -/
theorem parseNumber_complete (h : n.WellFormed) (hfinite : n.Finite reals)
    (hrest : EndsNumber rest) : parseNumber reals (n.text ++ rest) = .ok (n.value reals, rest) := by
  obtain ⟨hexpDigit, hexpPoint⟩ := noDigit_expPart h.exp hrest
  have htext : n.text ++ rest =
      (if n.minus then ['-'] else []) ++ (n.int ++ (n.frac ++ (n.exp ++ rest))) := by
    simp only [Number.text, List.append_assoc]
  have hsign : consume '-' (n.text ++ rest) =
      if n.minus then some (n.int ++ (n.frac ++ (n.exp ++ rest))) else none := by
    rw [htext]
    cases n.minus with
    | true => rfl
    | false =>
      obtain ⟨c, tail, hint, hdigit⟩ := head_intPart h.int
      have hminus : c ≠ '-' := by
        rintro rfl
        exact absurd hdigit (by decide)
      rw [hint]
      exact if_neg hminus
  refine (parseNumber_of_parts h ?_ ?_ (parseFraction_complete h.frac hexpDigit hexpPoint)
    (parseExponent_complete h.exp hrest)).mpr ⟨hfinite, rfl⟩
  · rw [hsign]
    cases n.minus <;> rfl
  · have hafter : (consume '-' (n.text ++ rest)).getD (n.text ++ rest) =
        n.int ++ (n.frac ++ (n.exp ++ rest)) := by
      rw [hsign, htext]
      cases n.minus <;> rfl
    rw [hafter]
    exact parseInteger_complete h.int (noDigit_fracPart h.frac hexpDigit)

end JsonText

end DrainFabric
