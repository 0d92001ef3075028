import Mathlib.Data.Nat.Digits.Defs
import Mathlib.Tactic.IntervalCases
import DrainFabric.Json.Acceptance

/-!
# What is written can be read, within the limits

The writer is bounded by nothing; the parser counts nodes, levels, entries and bytes.

* `value_dumpInto` — what is written for a plain value is a text of the grammar for it, up
  to the sign type of its integers (`JsonValue.canonical`);
* `jsonParse_dump` — so it is read back when the value is within the limits.
-/

namespace DrainFabric

open Lib JsonText JsonGrammar

variable {n : Nat} {value : JsonValue} {α ε : Type} {last : List Char} {limits : JsonLimits}

namespace JsonValue

mutual

/-- The value with every non-negative integer as an unsigned one. -/
def canonical : JsonValue → JsonValue
  | int value => if 0 ≤ value then uint value.toNat else int value
  | array items => array (canonicalItems items)
  | object members => object (canonicalMembers members)
  | value => value

def canonicalItems : List JsonValue → List JsonValue
  | [] => []
  | item :: rest => item.canonical :: canonicalItems rest

def canonicalMembers : List (String × JsonValue) → List (String × JsonValue)
  | [] => []
  | (key, value) :: rest => (key, value.canonical) :: canonicalMembers rest

end

/-- Every `Char` of the text is a byte. -/
def IsBytes (text : String) : Prop := ∀ c ∈ text.toList, c.toNat < 256

/-- A value of the source's types without a double, in which no object has a key twice. -/
inductive Plain : JsonValue → Prop
  | null : Plain null
  | bool (value : Bool) : Plain (bool value)
  | int {value : Int} : i64Min ≤ value → value ≤ i64Max → Plain (int value)
  | uint {value : Nat} : value ≤ u64Max → Plain (uint value)
  | string {text : String} : IsBytes text → Plain (string text)
  | array {items : List JsonValue} : (∀ item ∈ items, Plain item) → Plain (array items)
  | object {members : List (String × JsonValue)} :
      (members.map Prod.fst).Nodup → (∀ m ∈ members, IsBytes m.1) → (∀ m ∈ members, Plain m.2) →
      Plain (object members)

theorem canonicalItems_eq_map (items : List JsonValue) :
    canonicalItems items = items.map canonical := by
  induction items with
  | nil => rfl
  | cons item rest ih => rw [canonicalItems, ih, List.map_cons]

theorem canonicalMembers_eq_map (members : List (String × JsonValue)) :
    canonicalMembers members = members.map (fun m => (m.1, m.2.canonical)) := by
  induction members with
  | nil => rfl
  | cons m rest ih => rw [canonicalMembers, ih, List.map_cons]

end JsonValue

namespace JsonText

variable {reals : RealText} {indent depth : Nat}

/-! ### Strings and numbers -/

/-- What is written for a byte is one character of the grammar. -/
theorem stringChar_escapeChar (c : Char) : StringChar (JsonValue.escapeChar c) [c] := by
  have hsimple : ∀ d, (d, c) ∈ simpleEscapes → StringChar ['\\', d] [c] := fun _ => .escape
  unfold JsonValue.escapeChar
  split_ifs with hquote hback hb hf hn hr ht hcontrol
  · exact hsimple _ (by rw [hquote]; decide)
  · exact hsimple _ (by rw [hback]; decide)
  · exact hsimple _ (by rw [hb]; decide)
  · exact hsimple _ (by rw [hf]; decide)
  · exact hsimple _ (by rw [hn]; decide)
  · exact hsimple _ (by rw [hr]; decide)
  · exact hsimple _ (by rw [ht]; decide)
  · have hdigits : ∀ n : Fin 0x20, hex4 ['0', '0', Nat.digitChar (n / 16), Nat.digitChar (n % 16)] =
        some n.val := by
      decide
    have hutf8 : appendUtf8 c.toNat = [c] := by
      rw [appendUtf8, if_pos (by omega), Char.ofNat_toNat]
    have hchar := StringChar.unicode (hdigits ⟨c.toNat, hcontrol⟩)
      (fun h => absurd h.1 (by omega)) (fun h => absurd h.1 (by omega))
    rwa [hutf8] at hchar
  · exact .unescaped (Nat.not_lt.mp hcontrol) hquote hback

theorem chars_escaped (bytes : List Char) : Chars (bytes.flatMap JsonValue.escapeChar) bytes := by
  induction bytes with
  | nil => exact .nil
  | cons c bytes ih => exact .cons (stringChar_escapeChar c) ih

theorem isDigit_toDigits : ∀ c ∈ Nat.toDigits 10 n, c.isDigit = true :=
  fun _ hc => Nat.isDigit_of_mem_toDigits (by decide) (by decide) hc

/-- A positive number is written without a leading zero. -/
theorem head_toDigits (hn : 0 < n) : ∃ c digits, Nat.toDigits 10 n = c :: digits ∧ c ≠ '0' := by
  induction n using Nat.strong_induction_on with
  | _ n ih =>
    rw [Nat.toDigits_eq_if (by decide)]
    split_ifs with hlt
    · refine ⟨_, [], rfl, ?_⟩
      interval_cases n <;> decide
    · obtain ⟨c, digits, hdigits, hc⟩ := ih (n / 10) (by omega) (by omega)
      exact ⟨c, digits ++ [(n % 10).digitChar], by rw [hdigits, List.cons_append], hc⟩

theorem intPart_toDigits (n : Nat) : IntPart (Nat.toDigits 10 n) := by
  rcases Nat.eq_zero_or_pos n with rfl | hn
  · rw [Nat.toDigits_zero]
    exact .zero
  · obtain ⟨c, digits, hdigits, hc⟩ := head_toDigits hn
    have hall := isDigit_toDigits (n := n)
    rw [hdigits] at hall ⊢
    exact .positive (hall c List.mem_cons_self) hc
      (fun d hd => hall d (List.mem_cons_of_mem _ hd))

/-- The digits of an integer, after a sign or not, are a number of the grammar. -/
theorem value_toDigits {minus : Bool} (h : fromChars minus (Nat.toDigits 10 n) = some value) :
    Value reals ((if minus then ['-'] else []) ++ Nat.toDigits 10 n) value := by
  let number : Number := { minus, int := Nat.toDigits 10 n, frac := [], exp := [] }
  have hinteger : number.integer = some value := by
    rw [Number.integer, if_pos ⟨rfl, rfl⟩, h]
  have hformed : number.WellFormed := ⟨intPart_toDigits n, .none, .none⟩
  have hvalue : Value reals number.text (number.value reals) :=
    .number number hformed (fun hnone => by rw [hinteger] at hnone; cases hnone)
  rw [Number.value, hinteger, Option.getD_some, Number.text, List.append_nil, List.append_nil]
    at hvalue
  exact hvalue

theorem value_uint (h : n ≤ u64Max) : Value reals (Nat.toDigits 10 n) (.uint n) := by
  have hvalue : fromChars false (Nat.toDigits 10 n) = some (.uint n) := by
    rw [fromChars, Nat.ofDigitChars_ten_toDigits, if_neg Bool.false_ne_true, if_pos h]
  exact value_toDigits hvalue

theorem value_negative (h : i64Min ≤ -(n : Int)) :
    Value reals ('-' :: Nat.toDigits 10 n) (.int (-(n : Int))) := by
  have hvalue : fromChars true (Nat.toDigits 10 n) = some (.int (-(n : Int))) := by
    rw [fromChars, Nat.ofDigitChars_ten_toDigits, if_pos rfl, if_pos h]
  exact value_toDigits hvalue

theorem toList_toString (n : Nat) : (toString n).toList = Nat.toDigits 10 n := by
  rw [Nat.toString_eq_ofList_toDigits, String.toList_ofList]

theorem dumpInto_nonneg (n : Nat) :
    (JsonValue.int n).dumpInto reals indent depth = Nat.toDigits 10 n :=
  toList_toString n

theorem dumpInto_negative (n : Nat) :
    (JsonValue.int (Int.negSucc n)).dumpInto reals indent depth =
      '-' :: Nat.toDigits 10 (n + 1) := by
  show ("-" ++ toString (n + 1)).toList = _
  rw [String.toList_append, toList_toString]
  rfl

/-! ### Containers -/

theorem isSpace_lineBreak (indent depth : Nat) :
    ∀ c ∈ JsonValue.lineBreak indent depth, isSpace c = true := by
  intro c hc
  unfold JsonValue.lineBreak at hc
  split_ifs at hc with hzero
  · cases hc
  · rcases List.mem_cons.mp hc with rfl | hc
    · rfl
    · rw [List.eq_of_mem_replicate hc]
      rfl

theorem ws_lineBreak (indent depth : Nat) : Ws (JsonValue.lineBreak indent depth) :=
  fun c hc => isSpace_iff.mp (isSpace_lineBreak indent depth c hc)

/-- The text of an item. -/
def itemText (reals : RealText) (indent depth : Nat) (x : JsonValue) : List Char :=
  JsonValue.lineBreak indent (depth + 1) ++ x.dumpInto reals indent (depth + 1)

/-- The item as it is written, with what follows it. -/
def writtenItem (reals : RealText) (indent depth : Nat) (after : List Char) (x : JsonValue) : Item :=
  { before := JsonValue.lineBreak indent (depth + 1)
    text := x.dumpInto reals indent (depth + 1), after, value := x.canonical }

theorem whole_writtenItem (after : List Char) (x : JsonValue) :
    (writtenItem reals indent depth after x).whole = itemText reals indent depth x ++ after := rfl

/-- The entries of a container as they are written: before the closing bracket there is a
line break, before a comma there is none. -/
def written {α ε : Type} (entry : List Char → α → ε) (last : List Char) : List α → List ε
  | [] => []
  | [x] => [entry last x]
  | x :: y :: rest => entry [] x :: written entry last (y :: rest)

theorem written_ne_nil (entry : List Char → α → ε) (last : List Char) {xs : List α} (h : xs ≠ []) :
    written entry last xs ≠ [] := by
  match xs with
  | [] => exact absurd rfl h
  | [x] => exact List.cons_ne_nil _ _
  | x :: y :: rest => exact List.cons_ne_nil _ _

theorem map_written {β : Type} {entry : List Char → α → ε} {f : ε → β} {g : α → β}
    (h : ∀ after x, f (entry after x) = g x) (xs : List α) :
    (written entry last xs).map f = xs.map g := by
  induction xs with
  | nil => rfl
  | cons x rest ih =>
    cases rest with
    | nil => rw [written, List.map_singleton, List.map_singleton, h]
    | cons y rest => rw [written, List.map_cons, List.map_cons, h, ih]

theorem mem_written {entry : List Char → α → ε} {xs : List α} {e : ε}
    (h : e ∈ written entry last xs) :
    ∃ after x, (after = [] ∨ after = last) ∧ x ∈ xs ∧ e = entry after x := by
  induction xs with
  | nil => cases h
  | cons x rest ih =>
    cases rest with
    | nil => exact ⟨last, x, Or.inr rfl, List.mem_cons_self, List.mem_singleton.mp h⟩
    | cons y rest =>
      rcases List.mem_cons.mp h with rfl | h
      · exact ⟨[], x, Or.inl rfl, List.mem_cons_self, rfl⟩
      · obtain ⟨after, z, hafter, hz, rfl⟩ := ih h
        exact ⟨after, z, hafter, List.mem_cons_of_mem _ hz, rfl⟩

/-- The writer puts a comma before every entry but the first; in the grammar the commas
are between the entries. -/
theorem separated_written {entry : List Char → α → ε} {whole : ε → List Char}
    {body : α → List Char} (hwhole : ∀ after x, whole (entry after x) = body x ++ after) (x : α)
    (xs : List α) :
    separated ((written entry last (x :: xs)).map whole) =
      body x ++ (xs.flatMap (fun y => ',' :: body y)) ++ last := by
  induction xs generalizing x with
  | nil => rw [written, List.map_singleton, separated_singleton, hwhole]; simp
  | cons y rest ih =>
    obtain ⟨e, es, hes⟩ := List.exists_cons_of_ne_nil
      (written_ne_nil entry last (List.cons_ne_nil y rest))
    have hnext := ih y
    rw [hes] at hnext
    rw [written, hes, List.map_cons, List.map_cons, separated_cons_cons, ← List.map_cons, hnext,
      hwhole]
    simp

theorem dumpItems_true (x : JsonValue) (xs : List JsonValue) :
    JsonValue.dumpItems reals indent depth true (x :: xs) =
      itemText reals indent depth x ++
        xs.flatMap (fun y => ',' :: itemText reals indent depth y) := by
  have hrest : ∀ xs, JsonValue.dumpItems reals indent depth false xs =
      xs.flatMap (fun y => ',' :: itemText reals indent depth y) := by
    intro xs
    induction xs with
    | nil => rfl
    | cons y rest ih =>
      rw [JsonValue.dumpItems, ih]
      simp [itemText]
  rw [JsonValue.dumpItems, hrest]
  simp [itemText]

/-- The text of a member. -/
def memberText (reals : RealText) (indent depth : Nat) (m : String × JsonValue) : List Char :=
  JsonValue.lineBreak indent (depth + 1) ++ JsonValue.appendEscaped m.1 ++
    (if indent = 0 then [':'] else [':', ' ']) ++ m.2.dumpInto reals indent (depth + 1)

theorem dumpMembers_true (m : String × JsonValue) (ms : List (String × JsonValue)) :
    JsonValue.dumpMembers reals indent depth true (m :: ms) =
      memberText reals indent depth m ++
        ms.flatMap (fun m' => ',' :: memberText reals indent depth m') := by
  have hrest : ∀ ms, JsonValue.dumpMembers reals indent depth false ms =
      ms.flatMap (fun m' => ',' :: memberText reals indent depth m') := by
    intro ms
    induction ms with
    | nil => rfl
    | cons m rest ih =>
      obtain ⟨key, value⟩ := m
      rw [JsonValue.dumpMembers, ih]
      simp [memberText]
  obtain ⟨key, value⟩ := m
  rw [JsonValue.dumpMembers, hrest]
  simp [memberText]

/-- The member as it is written, with what follows it. -/
def writtenMember (reals : RealText) (indent depth : Nat) (after : List Char)
    (m : String × JsonValue) : Member :=
  { before := JsonValue.lineBreak indent (depth + 1)
    keyText := m.1.toList.flatMap JsonValue.escapeChar, key := m.1.toList, beforeColon := []
    item := { before := if indent = 0 then [] else [' ']
              text := m.2.dumpInto reals indent (depth + 1), after, value := m.2.canonical } }

theorem whole_writtenMember (after : List Char) (m : String × JsonValue) :
    (writtenMember reals indent depth after m).whole =
      memberText reals indent depth m ++ after := by
  simp only [writtenMember, Member.whole, Item.whole, memberText, JsonValue.appendEscaped]
  split_ifs <;> simp

/-- What is written for a plain value is a text of the grammar for it. -/
theorem value_dumpInto (h : value.Plain) :
    Value reals (value.dumpInto reals indent depth) value.canonical := by
  induction h generalizing depth with
  | null => exact .null
  | bool value =>
    cases value with
    | true => exact .true
    | false => exact .false
  | @int value hmin hmax =>
    cases value with
    | ofNat n =>
      rw [Int.ofNat_eq_natCast] at hmax ⊢
      rw [dumpInto_nonneg]
      refine value_uint ?_
      unfold i64Max at hmax
      unfold u64Max
      omega
    | negSucc n =>
      rw [dumpInto_negative]
      exact value_negative hmin
  | uint hmax =>
    rw [JsonValue.dumpInto, toList_toString]
    exact value_uint hmax
  | @string text _ =>
    have hvalue : Value reals _ (.string (String.ofList text.toList)) :=
      .string (chars_escaped text.toList)
    rwa [String.ofList_toList] at hvalue
  | @array items _ ih =>
    cases items with
    | nil => exact .emptyArray ws_nil
    | cons x xs =>
      let entries := written (writtenItem reals indent depth)
        (JsonValue.lineBreak indent depth) (x :: xs)
      have hentry : ∀ e ∈ entries, e.Spaced ∧ Value reals e.text e.value := by
        intro e he
        obtain ⟨after, y, hafter, hy, rfl⟩ := mem_written he
        refine ⟨⟨ws_lineBreak _ _, ?_⟩, ih y hy⟩
        rcases hafter with rfl | rfl
        · exact ws_nil
        · exact ws_lineBreak _ _
      have htext : separated (entries.map Item.whole) =
          JsonValue.dumpItems reals indent depth true (x :: xs) ++
            JsonValue.lineBreak indent depth := by
        rw [dumpItems_true]
        exact separated_written whole_writtenItem x xs
      have hvalues : entries.map Item.value = JsonValue.canonicalItems (x :: xs) := by
        rw [JsonValue.canonicalItems_eq_map]
        exact map_written (f := Item.value) (g := JsonValue.canonical) (fun _ _ => rfl) _
      have hvalue : Value reals _ (.array (entries.map Item.value)) :=
        .array (written_ne_nil _ _ (List.cons_ne_nil x xs)) (fun e he => (hentry e he).1)
          (fun e he => (hentry e he).2)
      rwa [htext, hvalues] at hvalue
  | @object members _ _ _ ih =>
    cases members with
    | nil => exact .emptyObject ws_nil
    | cons m ms =>
      let entries := written (writtenMember reals indent depth)
        (JsonValue.lineBreak indent depth) (m :: ms)
      have hentry : ∀ e ∈ entries, e.WellFormed ∧ Value reals e.item.text e.item.value := by
        intro e he
        obtain ⟨after, m', hafter, hm', rfl⟩ := mem_written he
        refine ⟨⟨ws_lineBreak _ _, chars_escaped _, ws_nil, ?_, ?_⟩,
          ih m' hm'⟩
        · dsimp only [writtenMember]
          split_ifs
          · exact ws_nil
          · exact fun c hc => Or.inl (List.mem_singleton.mp hc)
        · rcases hafter with rfl | rfl
          · exact ws_nil
          · exact ws_lineBreak _ _
      have htext : separated (entries.map Member.whole) =
          JsonValue.dumpMembers reals indent depth true (m :: ms) ++
            JsonValue.lineBreak indent depth := by
        rw [dumpMembers_true]
        exact separated_written whole_writtenMember m ms
      have hvalues : entries.map Member.entry = JsonValue.canonicalMembers (m :: ms) := by
        rw [JsonValue.canonicalMembers_eq_map]
        refine map_written (fun _ m' => ?_) _
        rw [Member.entry, writtenMember, String.ofList_toList]
      have hvalue : Value reals _ (.object (entries.map Member.entry)) :=
        .object (written_ne_nil _ _ (List.cons_ne_nil m ms)) (fun e he => (hentry e he).1)
          (fun e he => (hentry e he).2)
      rwa [htext, hvalues] at hvalue

end JsonText

namespace JsonValue

/-! ### The identification of integers is felt by no limit -/

mutual

theorem nodes_canonical : ∀ value : JsonValue, value.canonical.nodes = value.nodes
  | null | bool _ | uint _ | real _ | string _ => rfl
  | int value => by
    rw [canonical]
    split_ifs <;> rfl
  | array items => by rw [canonical, nodes, nodes, nodesOf_canonicalItems items]
  | object members => by rw [canonical, nodes, nodes, nodesUnder_canonicalMembers members]

theorem nodesOf_canonicalItems : ∀ items, nodesOf (canonicalItems items) = nodesOf items
  | [] => rfl
  | item :: rest => by
    rw [canonicalItems, nodesOf, nodesOf, nodes_canonical item, nodesOf_canonicalItems rest]

theorem nodesUnder_canonicalMembers :
    ∀ members, nodesUnder (canonicalMembers members) = nodesUnder members
  | [] => rfl
  | (key, value) :: rest => by
    rw [canonicalMembers, nodesUnder, nodesUnder, nodes_canonical value,
      nodesUnder_canonicalMembers rest]

end

mutual

theorem canonical_canonical : ∀ value : JsonValue, value.canonical.canonical = value.canonical
  | null | bool _ | uint _ | real _ | string _ => rfl
  | int value => by
    rw [canonical]
    split_ifs with hnonneg
    · rfl
    · rw [canonical, if_neg hnonneg]
  | array items => by rw [canonical, canonical, canonicalItems_canonicalItems items]
  | object members => by rw [canonical, canonical, canonicalMembers_canonicalMembers members]

theorem canonicalItems_canonicalItems :
    ∀ items, canonicalItems (canonicalItems items) = canonicalItems items
  | [] => rfl
  | item :: rest => by
    rw [canonicalItems, canonicalItems, canonical_canonical item,
      canonicalItems_canonicalItems rest]

theorem canonicalMembers_canonicalMembers :
    ∀ members, canonicalMembers (canonicalMembers members) = canonicalMembers members
  | [] => rfl
  | (key, value) :: rest => by
    rw [canonicalMembers, canonicalMembers, canonical_canonical value,
      canonicalMembers_canonicalMembers rest]

end

theorem fits_canonical {levels : Nat} :
    value.canonical.Fits limits levels ↔ value.Fits limits levels := by
  induction levels generalizing value with
  | zero => exact Iff.rfl
  | succ levels ih =>
    cases value with
    | int value =>
      rw [canonical]
      split_ifs <;> exact Iff.rfl
    | array items =>
      rw [canonical, canonicalItems_eq_map, Fits, Fits, List.length_map]
      simp only [List.forall_mem_map, ih]
    | object members =>
      rw [canonical, canonicalMembers_eq_map, Fits, Fits, List.length_map]
      simp only [List.forall_mem_map, ih]
    | _ => exact Iff.rfl

theorem within_canonical : value.canonical.Within limits ↔ value.Within limits := by
  rw [Within, Within, fits_canonical, nodes_canonical]

/-- Identifying integers makes no two keys equal. -/
theorem Plain.distinct (h : value.Plain) : value.canonical.Distinct := by
  induction h with
  | array _ ih =>
    rw [canonical, canonicalItems_eq_map]
    refine .array ?_
    rw [List.forall_mem_map]
    exact ih
  | object hnodup _ _ ih =>
    rw [canonical, canonicalMembers_eq_map]
    refine .object ?_ ?_
    · rw [List.map_map]
      exact hnodup
    · rw [List.forall_mem_map]
      exact ih
  | int =>
    rw [canonical]
    split_ifs <;> exact .leaf rfl rfl
  | _ => exact .leaf rfl rfl

end JsonValue

/-! ### Whole texts -/

/-- What is written for a plain value is a text for it. -/
theorem text_dump {reals : RealText} (hv : value.Plain) (indent : Nat) :
    Text reals (value.dump reals indent) value.canonical :=
  ⟨[], value.dump reals indent, [], by simp, ws_nil, ws_nil, value_dumpInto hv⟩

/-- A plain value within the limits is read back from its text, if the text is not too
long. -/
theorem jsonParse_dump {reals : RealText} (hv : value.Plain) (hwithin : value.Within limits)
    {indent : Nat} (hlen : (value.dump reals indent).length ≤ limits.maxTotalBytes) :
    jsonParse reals (value.dump reals indent) limits = .ok value.canonical :=
  jsonParse_eq_ok.mpr
    ⟨text_dump hv indent, hv.distinct, JsonValue.within_canonical.mpr hwithin, hlen⟩

/-- A value that was read from a text is within the limits. -/
theorem jsonParse_within {reals : RealText} {text : List Char}
    (h : jsonParse reals text limits = .ok value) : value.Within limits :=
  (jsonParse_eq_ok.mp h).2.2.1

end DrainFabric
