import DrainFabric.Json.Reprint
import DrainFabric.Runtime.Boot

/-!
# Damaged boot markers

The boot marker is a text of four lines, and its last line is a checksum of the two numbers.
A changed digit is noticed by the checksum, a changed line break leaves too few lines. But
a digit may also become a line break. Then there is a line too many, the numbers are cut
differently, and the reader takes a part of a number for the checksum. It does not look at
what follows the line it takes for the last one, so if this part happens to be the
checksum, the damaged marker is read.

* `changed_line` — what one changed character does to the first line of a text;
* `bootChecksum_ne` — the checksum notices a changed digit;
* `Unsplittable` — no number can be cut so that its part is a checksum;
* `peek_of_unsplittable`, `exists_peek` — the markers that are safe, and those that are not.
-/

namespace DrainFabric

open Lib

variable {a b : Nat} {d : Char}

/-! ### Lines -/

/-- A text has one first line. -/
theorem line_unique {a b s t : List Char} (ha : '\n' ∉ a) (hb : '\n' ∉ b)
    (h : a ++ '\n' :: s = b ++ '\n' :: t) : a = b ∧ s = t := by
  have hcut : some (a, s) = some (b, t) := by rw [← cut_append ha, h, cut_append hb]
  exact Prod.mk.inj (Option.some.inj hcut)

/-- How a changed character shows in the first line: the line itself is changed, or it is
cut, or it is joined with what follows, or the change is behind it. -/
theorem changed_line {line rest first tail : List Char} (hline : '\n' ∉ line)
    (hfirst : '\n' ∉ first) (h : DiffersOnce (line ++ '\n' :: rest) (first ++ '\n' :: tail)) :
    (DiffersOnce line first ∧ tail = rest) ∨
      (∃ d c, line = first ++ d :: c ∧ tail = c ++ '\n' :: rest) ∨
      (∃ x, first ++ '\n' :: tail = line ++ x :: rest ∧ x ≠ '\n') ∨
      (first = line ∧ DiffersOnce rest tail) := by
  rcases differsOnce_append h with ⟨line', hchanged, heq⟩ | ⟨behind, hchanged, heq⟩
  · by_cases hbreak : '\n' ∈ line'
    · -- The character became a line break.
      obtain @⟨front, back, d, d', hne⟩ := hchanged
      have hfront : '\n' ∉ front := fun hmem => hline (List.mem_append_left _ hmem)
      have hback : '\n' ∉ back := fun hmem =>
        hline (List.mem_append_right _ (List.mem_cons_of_mem _ hmem))
      obtain rfl : '\n' = d' := by
        rcases List.mem_append.mp hbreak with hmem | hmem
        · exact absurd hmem hfront
        · exact (List.mem_cons.mp hmem).resolve_right hback
      rw [List.append_assoc, List.cons_append] at heq
      obtain ⟨rfl, rfl⟩ := line_unique hfirst hfront heq
      exact Or.inr (Or.inl ⟨d, back, rfl, rfl⟩)
    · obtain ⟨rfl, rfl⟩ := line_unique hfirst hbreak heq
      exact Or.inl ⟨hchanged, rfl⟩
  · rcases differsOnce_cons hchanged with ⟨x, hne, rfl⟩ | ⟨tail', hbehind, rfl⟩
    · exact Or.inr (Or.inr (Or.inl ⟨x, heq, hne.symm⟩))
    · obtain ⟨rfl, rfl⟩ := line_unique hfirst hline heq
      exact Or.inr (Or.inr (Or.inr ⟨rfl, hbehind⟩))

/-- Nineteen digits fit into the counter. -/
theorem exists_parseDecimal {digits : List Char} (hne : digits ≠ [])
    (hdigits : ∀ c ∈ digits, c.isDigit = true) (hlength : digits.length ≤ 19) :
    ∃ n, parseDecimal digits = .ok n := by
  have hsmall : Nat.ofDigitChars 10 digits 0 ≤ u64Max := by
    have hlt := JsonGrammar.ofDigitChars_lt hdigits 0
    have hpow : 10 ^ digits.length ≤ 10 ^ 19 := Nat.pow_le_pow_right (by decide) hlength
    have hmax : 10 ^ 19 ≤ u64Max := by decide
    omega
  refine ⟨Nat.ofDigitChars 10 digits 0, ?_⟩
  rw [parseDecimal, rejectIf, if_neg hne, ok_bind]
  exact foldlM_decimalStep hdigits 0 hsmall

/-! ### The checksum -/

theorem digitChar_injective (ha : a < 16) (hb : b < 16) (h : Nat.digitChar a = Nat.digitChar b) :
    a = b := by
  have hall : ∀ a < 16, ∀ b < 16, Nat.digitChar a = Nat.digitChar b → a = b := by decide
  exact hall a ha b hb h

/-- A number is determined by its digits. -/
theorem eq_of_div_mod {base n : Nat} (ha : a < base ^ n) (hb : b < base ^ n)
    (h : ∀ k < n, a / base ^ k % base = b / base ^ k % base) : a = b := by
  induction n generalizing a b with
  | zero =>
    rw [pow_zero] at ha hb
    omega
  | succ n ih =>
    have hlow := h 0 n.succ_pos
    rw [pow_zero, Nat.div_one, Nat.div_one] at hlow
    have hhigh : a / base = b / base := by
      rw [pow_succ'] at ha hb
      refine ih (Nat.div_lt_of_lt_mul ha) (Nat.div_lt_of_lt_mul hb) (fun k hk => ?_)
      have hk := h (k + 1) (Nat.succ_lt_succ hk)
      rwa [pow_succ', ← Nat.div_div_eq_div_mul, ← Nat.div_div_eq_div_mul] at hk
    rw [← Nat.div_add_mod a base, ← Nat.div_add_mod b base, hhigh, hlow]

/-- Different numbers are written differently. -/
theorem hexU32_injective (ha : a < 2 ^ 32) (hb : b < 2 ^ 32) (h : hexU32 a = hexU32 b) : a = b := by
  have hlist := String.ofList_injective h
  have hwide : 2 ^ 32 = 16 ^ 8 := by decide
  refine eq_of_div_mod (hwide ▸ ha) (hwide ▸ hb) (fun k hk => ?_)
  have hchar := List.map_inj_left.mp hlist (7 - k) (List.mem_range.mpr (by omega))
  have hdigit := digitChar_injective (Nat.mod_lt _ (by decide)) (Nat.mod_lt _ (by decide)) hchar
  rwa [Nat.shiftRight_eq_div_pow, Nat.shiftRight_eq_div_pow, Nat.pow_mul,
    Nat.sub_sub_self (Nat.le_of_lt_succ hk)] at hdigit

/-- The checksum notices a changed digit. -/
theorem bootChecksum_ne {i e i' e' : List Char} (hdigits : ∀ c ∈ i ++ e, c.isDigit = true)
    (hdigits' : ∀ c ∈ i' ++ e', c.isDigit = true)
    (h : DiffersOnce (i ++ ' ' :: e) (i' ++ ' ' :: e')) :
    bootChecksum i' e' ≠ bootChecksum i e := by
  have hsmall : ∀ {a b : List Char}, (∀ c ∈ a ++ b, c.isDigit = true) →
      AllBytes (a ++ ' ' :: b) := by
    intro a b hab c hc
    have hc : c ∈ a ++ b ∨ c = ' ' := by
      simp only [List.mem_append, List.mem_cons] at hc ⊢
      tauto
    rcases hc with hc | rfl
    · exact lt_of_le_of_lt (Char.isDigit_iff_toNat.mp (hab c hc)).2 (by decide)
    · decide
  have hbytes : DiffersOnce (bytesOf (i ++ ' ' :: e)) (bytesOf (i' ++ ' ' :: e')) := by
    refine h.map (fun c hc c' hc' hne heq => hne ?_)
    have hnat := congrArg UInt8.toNat heq
    rw [UInt8.toNat_ofNat', UInt8.toNat_ofNat', Nat.mod_eq_of_lt (hsmall hdigits c hc),
      Nat.mod_eq_of_lt (hsmall hdigits' c' hc')] at hnat
    exact Char.toNat_inj.mp hnat
  intro heq
  refine crc32c_ne_of_differsOnce hbytes (UInt32.toNat_inj.mp ?_)
  exact hexU32_injective (UInt32.toNat_lt _) (UInt32.toNat_lt _) (String.toList_inj.mp heq)

/-! ### Damage -/

section Lines

variable {I E i e rest : List Char}

/-- The change is not in the incarnation: a digit of the epoch became a line break, and
the digits behind it are the checksum. -/
theorem epoch_split (hI : ∀ c ∈ I, c.isDigit = true) (hE : ∀ c ∈ E, c.isDigit = true)
    (he : ∀ c ∈ e, c.isDigit = true)
    (h : DiffersOnce (E ++ '\n' :: (bootChecksum I E ++ ['\n']))
      (e ++ '\n' :: (bootChecksum I e ++ '\n' :: rest))) :
    ∃ d, E = e ++ d :: bootChecksum I e := by
  have hbreaksE := newline_notMem_of_digits hE
  have hbreakse := newline_notMem_of_digits he
  have hbreaksK := (bootChecksum_spec I E).1
  have hbreaksk := (bootChecksum_spec I e).1
  rcases changed_line hbreaksE hbreakse h with ⟨hchanged, htail⟩ | ⟨d, c, hsplit, htail⟩ |
    ⟨x, hjoined, hx⟩ | ⟨rfl, hbehind⟩
  · -- The checksum notices a changed digit.
    obtain ⟨hsame, -⟩ := line_unique hbreaksk hbreaksK htail
    refine absurd hsame (bootChecksum_ne ?_ ?_ ?_)
    · exact fun c hc => (List.mem_append.mp hc).elim (hI c) (hE c)
    · exact fun c hc => (List.mem_append.mp hc).elim (hI c) (he c)
    · exact (hchanged.append_left [' ']).append_left I
  · have hc : '\n' ∉ c := fun hmem =>
      hbreaksE (hsplit ▸ List.mem_append_right _ (List.mem_cons_of_mem _ hmem))
    obtain ⟨hsame, -⟩ := line_unique hbreaksk hc htail
    exact ⟨d, hsame ▸ hsplit⟩
  · -- Without the line break behind the epoch there is no checksum.
    have hlonger : '\n' ∉ E ++ x :: bootChecksum I E := by
      simp only [List.mem_append, List.mem_cons, not_or]
      exact ⟨hbreaksE, hx.symm, hbreaksK⟩
    have hlines : e ++ '\n' :: (bootChecksum I e ++ '\n' :: rest) =
        (E ++ x :: bootChecksum I E) ++ '\n' :: [] := by
      rw [hjoined, List.append_assoc, List.cons_append]
    obtain ⟨-, hnothing⟩ := line_unique hbreakse hlonger hlines
    exact absurd hnothing (by simp)
  · -- The checksum is the right one, and nothing is left behind it.
    refine absurd ?_ hbehind.ne
    have hlength := hbehind.length_eq
    rw [List.length_append, List.length_append, List.length_cons, List.length_cons] at hlength
    have hrest : rest = [] := List.eq_nil_of_length_eq_zero (by simpa using hlength)
    rw [hrest]

/-- A changed marker that is read has lost a digit to a line break. -/
theorem marker_split (hI : ∀ c ∈ I, c.isDigit = true) (hE : ∀ c ∈ E, c.isDigit = true)
    (hi : ∀ c ∈ i, c.isDigit = true) (he : ∀ c ∈ e, c.isDigit = true)
    (h : DiffersOnce (markerLines I E (bootChecksum I E) [])
      (markerLines i e (bootChecksum i e) rest)) :
    (∃ d, I = i ++ d :: e ∧ E = bootChecksum i e) ∨ i = I ∧ ∃ d, E = e ++ d :: bootChecksum I e := by
  have hbreaksI := newline_notMem_of_digits hI
  have hbreaksE := newline_notMem_of_digits hE
  have hbreaksi := newline_notMem_of_digits hi
  have hbreakse := newline_notMem_of_digits he
  have hbreaksK := (bootChecksum_spec I E).1
  have hbreaksk := (bootChecksum_spec i e).1
  have hhead : '\n' ∉ bootMarkerHead := by decide
  -- The first line has to be the same.
  rcases changed_line hhead hhead h with ⟨hchanged, -⟩ | ⟨d, c, hcut, -⟩ | ⟨x, hjoined, hx⟩ |
    ⟨-, hbehind⟩
  · exact absurd rfl hchanged.ne
  · exact absurd hcut (by simp)
  · exact absurd (List.cons.inj (List.append_cancel_left hjoined)).1.symm hx
  rcases changed_line hbreaksI hbreaksi hbehind with ⟨hchanged, htail⟩ | ⟨d, c, hsplit, htail⟩ |
    ⟨x, hjoined, hx⟩ | ⟨rfl, hepoch⟩
  · obtain ⟨rfl, hchecksum⟩ := line_unique hbreakse hbreaksE htail
    obtain ⟨hsame, -⟩ := line_unique hbreaksk hbreaksK hchecksum
    refine absurd hsame (bootChecksum_ne ?_ ?_ ?_)
    · exact fun c hc => (List.mem_append.mp hc).elim (hI c) (hE c)
    · exact fun c hc => (List.mem_append.mp hc).elim (hi c) (he c)
    · exact hchanged.append_right _
  · have hc : '\n' ∉ c := fun hmem =>
      hbreaksI (hsplit ▸ List.mem_append_right _ (List.mem_cons_of_mem _ hmem))
    obtain ⟨rfl, hepoch⟩ := line_unique hbreakse hc htail
    obtain ⟨hsame, -⟩ := line_unique hbreaksk hbreaksE hepoch
    exact Or.inl ⟨d, hsplit, hsame.symm⟩
  · -- Without the line break behind the incarnation a line is missing.
    have hlonger : '\n' ∉ I ++ x :: E := by
      simp only [List.mem_append, List.mem_cons, not_or]
      exact ⟨hbreaksI, hx.symm, hbreaksE⟩
    have hlines : i ++ '\n' :: (e ++ '\n' :: (bootChecksum i e ++ '\n' :: rest)) =
        (I ++ x :: E) ++ '\n' :: (bootChecksum I E ++ ['\n']) := by
      rw [hjoined, List.append_assoc, List.cons_append]
    obtain ⟨-, htail⟩ := line_unique hbreaksi hlonger hlines
    obtain ⟨-, hnothing⟩ := line_unique hbreakse hbreaksK htail
    exact absurd hnothing (by simp)
  · exact Or.inr ⟨rfl, epoch_split hI hE he hepoch⟩

end Lines

/-- No digit of the incarnation can be replaced with a line break so that the epoch is the
checksum of the two parts, and no digit of the epoch so that its end is the checksum. -/
def BootRecord.Unsplittable (record : BootRecord) : Prop :=
  (∀ k < (toString record.incarnation).toList.length,
    0 < k → k + 1 < (toString record.incarnation).toList.length →
      (toString record.epoch).toList ≠
        bootChecksum ((toString record.incarnation).toList.take k)
          ((toString record.incarnation).toList.drop (k + 1))) ∧
  ∀ k < (toString record.epoch).toList.length, 0 < k →
    (toString record.epoch).toList.drop (k + 1) ≠
      bootChecksum (toString record.incarnation).toList ((toString record.epoch).toList.take k)

instance (record : BootRecord) : Decidable record.Unsplittable :=
  inferInstanceAs (Decidable (_ ∧ _))

/-- The same in terms of the parts. -/
theorem BootRecord.unsplittable_iff {record : BootRecord} :
    record.Unsplittable ↔
      (∀ i d e, Nat.toDigits 10 record.incarnation = i ++ d :: e → i ≠ [] → e ≠ [] →
        Nat.toDigits 10 record.epoch ≠ bootChecksum i e) ∧
      ∀ e d, e ≠ [] → Nat.toDigits 10 record.epoch ≠
        e ++ d :: bootChecksum (Nat.toDigits 10 record.incarnation) e := by
  unfold Unsplittable
  simp only [JsonText.toList_toString]
  generalize Nat.toDigits 10 record.incarnation = I
  generalize Nat.toDigits 10 record.epoch = E
  have hparts : ∀ {l : List Char} {k : Nat} (hk : k < l.length),
      l = l.take k ++ l[k] :: l.drop (k + 1) := fun hk => by
    rw [List.getElem_cons_drop, List.take_append_drop]
  have hplace : ∀ {a c : List Char} {d : Char}, a.length < (a ++ d :: c).length ∧
      (a ++ d :: c).take a.length = a ∧ (a ++ d :: c).drop (a.length + 1) = c := by
    intro a c d
    refine ⟨?_, List.take_left, ?_⟩
    · rw [List.length_append, List.length_cons]
      omega
    · rw [← List.drop_drop, List.drop_left]
      rfl
  refine and_congr ⟨fun h i d e hsplit hi he => ?_, fun h k hk hpos hlast => ?_⟩
    ⟨fun h e d he hsplit => ?_, fun h k hk hpos hsame => ?_⟩
  · subst hsplit
    obtain ⟨hlt, htake, hdrop⟩ := @hplace i e d
    have hshort : i.length + 1 < (i ++ d :: e).length := by
      have hpos := List.length_pos_of_ne_nil he
      rw [List.length_append, List.length_cons]
      omega
    have hne := h i.length hlt (List.length_pos_of_ne_nil hi) hshort
    rwa [htake, hdrop] at hne
  · refine h _ _ _ (hparts hk) ?_ ?_
    · exact List.ne_nil_of_length_pos (by rw [List.length_take]; omega)
    · exact List.ne_nil_of_length_pos (by rw [List.length_drop]; omega)
  · obtain ⟨hlt, htake, hdrop⟩ := @hplace e (bootChecksum I e) d
    rw [← hsplit] at hlt htake hdrop
    have hne := h e.length hlt (List.length_pos_of_ne_nil he)
    rw [htake, hdrop] at hne
    exact hne rfl
  · refine h (E.take k) E[k] (List.ne_nil_of_length_pos (by rw [List.length_take]; omega)) ?_
    rw [← hsame]
    exact hparts hk

section

variable {record : BootRecord}

/-- A changed text is read as a whole, too. -/
theorem take_of_differsOnce (hincarnation : record.incarnation ≤ u64Max)
    (hepoch : record.epoch ≤ u64Max) {text : List Char}
    (h : DiffersOnce (bootMarkerText record) text) : text.take 192 = text := by
  have hlength := length_bootMarkerText_le hincarnation hepoch
  exact List.take_of_length_le (h.length_eq.le.trans (hlength.trans (by decide)))

/-- Damage to the marker of an unsplittable record is noticed. -/
theorem peek_of_unsplittable (hincarnation : record.incarnation ≤ u64Max)
    (hepoch : record.epoch ≤ u64Max) (h : record.Unsplittable) {text : List Char}
    (hdamage : DiffersOnce (bootMarkerText record) text) :
    ∃ err, peekBootRecord (some text) = .error err := by
  obtain ⟨hunsplitI, hunsplitE⟩ := BootRecord.unsplittable_iff.mp h
  cases hpeek : peekBootRecord (some text) with
  | error err => exact ⟨err, rfl⟩
  | ok found =>
    obtain ⟨i, e, rest, htext, hi, he⟩ := peek_eq_ok.mp hpeek
    rw [take_of_differsOnce hincarnation hepoch hdamage] at htext
    rw [bootMarkerText_eq, htext] at hdamage
    obtain ⟨hine, hidigits⟩ := digits_of_parseDecimal hi
    obtain ⟨hene, hedigits⟩ := digits_of_parseDecimal he
    rcases marker_split JsonText.isDigit_toDigits JsonText.isDigit_toDigits hidigits hedigits
      hdamage with ⟨d, hsplit, hsame⟩ | ⟨rfl, d, hsplit⟩
    · exact absurd hsame (hunsplitI i d e hsplit hine hene)
    · exact absurd hsplit (hunsplitE e d hene)

/-- A digit of the incarnation becomes a line break. -/
theorem differsOnce_incarnation (hd : d ≠ '\n') (i e E K : List Char) :
    DiffersOnce (markerLines (i ++ d :: e) E K []) (markerLines i e E (K ++ ['\n'])) := by
  have hbreak : DiffersOnce (i ++ d :: (e ++ '\n' :: (E ++ '\n' :: (K ++ ['\n']))))
      (i ++ '\n' :: (e ++ '\n' :: (E ++ '\n' :: (K ++ ['\n'])))) := .here hd
  rw [markerLines, markerLines, List.append_assoc, List.cons_append]
  exact (hbreak.append_left ['\n']).append_left bootMarkerHead

/-- A digit of the epoch becomes a line break. -/
theorem differsOnce_epoch (hd : d ≠ '\n') (I e k K : List Char) :
    DiffersOnce (markerLines I (e ++ d :: k) K []) (markerLines I e k (K ++ ['\n'])) := by
  have hbreak : DiffersOnce (e ++ d :: (k ++ '\n' :: (K ++ ['\n'])))
      (e ++ '\n' :: (k ++ '\n' :: (K ++ ['\n']))) := .here hd
  rw [markerLines, markerLines, List.append_assoc, List.cons_append]
  exact (((hbreak.append_left ['\n']).append_left I).append_left ['\n']).append_left bootMarkerHead

/-- The digits in front of and behind a digit. -/
theorem digits_split {line a c : List Char} (hline : ∀ x ∈ line, x.isDigit = true)
    (hsplit : line = a ++ d :: c) :
    d ≠ '\n' ∧ (∀ x ∈ a, x.isDigit = true) ∧ ∀ x ∈ c, x.isDigit = true := by
  subst hsplit
  refine ⟨fun hd => ?_, fun x hx => hline x (List.mem_append_left _ hx), fun x hx =>
    hline x (List.mem_append_right _ (List.mem_cons_of_mem _ hx))⟩
  have hdigit := hline d (List.mem_append_right _ List.mem_cons_self)
  rw [hd] at hdigit
  exact absurd hdigit (by decide)

/-- The marker of any other record can be damaged so that it is read. -/
theorem exists_peek (hincarnation : record.incarnation ≤ u64Max) (hepoch : record.epoch ≤ u64Max)
    (h : ¬ record.Unsplittable) :
    ∃ text found, DiffersOnce (bootMarkerText record) text ∧
      peekBootRecord (some text) = .ok found := by
  rw [BootRecord.unsplittable_iff, not_and_or] at h
  push Not at h
  -- Either way a marker with one more line is left.
  obtain ⟨i, e, incarnation, epoch, rest, hdamage, hi, he⟩ : ∃ i e incarnation epoch rest,
      DiffersOnce (bootMarkerText record) (markerLines i e (bootChecksum i e) rest) ∧
        parseDecimal i = .ok incarnation ∧ parseDecimal e = .ok epoch := by
    rw [bootMarkerText_eq]
    rcases h with ⟨i, d, e, hsplit, hi, he, hsame⟩ | ⟨e, d, he, hsplit⟩
    · obtain ⟨hd, hidigits, hedigits⟩ := digits_split JsonText.isDigit_toDigits hsplit
      have hlength := length_digits_le hincarnation
      rw [hsplit, List.length_append, List.length_cons] at hlength
      obtain ⟨incarnation, hincarnation'⟩ := exists_parseDecimal hi hidigits (by omega)
      obtain ⟨epoch, hepoch'⟩ := exists_parseDecimal he hedigits (by omega)
      rw [hsplit, hsame]
      exact ⟨i, e, incarnation, epoch, _, differsOnce_incarnation hd i e _ _, hincarnation',
        hepoch'⟩
    · obtain ⟨hd, hedigits, -⟩ := digits_split JsonText.isDigit_toDigits hsplit
      have hlength := length_digits_le hepoch
      rw [hsplit, List.length_append, List.length_cons] at hlength
      obtain ⟨epoch, hepoch'⟩ := exists_parseDecimal he hedigits (by omega)
      have hdamage := differsOnce_epoch hd (Nat.toDigits 10 record.incarnation) e
        (bootChecksum (Nat.toDigits 10 record.incarnation) e)
        (bootChecksum (Nat.toDigits 10 record.incarnation) (Nat.toDigits 10 record.epoch))
      rw [← hsplit] at hdamage
      exact ⟨_, e, record.incarnation, epoch, _, hdamage, parseDecimal_toDigits hincarnation,
        hepoch'⟩
  refine ⟨_, { incarnation, epoch }, hdamage, peek_eq_ok.mpr ⟨i, e, rest, ?_, hi, he⟩⟩
  exact take_of_differsOnce hincarnation hepoch hdamage

end

/-- For every pair of counters: the marker reads back; and every text that differs from it
in one character is refused exactly when no digit of the marker is in the place of a line
break that would let a part of a number pass for the checksum. -/
theorem marker_integrity_iff {record : BootRecord} (hincarnation : record.incarnation ≤ u64Max)
    (hepoch : record.epoch ≤ u64Max) :
    peekBootRecord (some (bootMarkerText record)) = .ok record ∧
      ((∀ text, DiffersOnce (bootMarkerText record) text →
        ∃ err, peekBootRecord (some text) = .error err) ↔ record.Unsplittable) := by
  refine ⟨peek_bootMarkerText hincarnation hepoch, fun hdetected => ?_, fun h text hdamage =>
    peek_of_unsplittable hincarnation hepoch h hdamage⟩
  by_contra hsplit
  obtain ⟨text, found, hdamage, hok⟩ := exists_peek hincarnation hepoch hsplit
  obtain ⟨err, herr⟩ := hdetected text hdamage
  cases hok.symm.trans herr

/-- The markers of this pair are safe. -/
theorem marker_integrity_small :
    peekBootRecord (some (bootMarkerText ⟨12345, 678⟩)) = .ok ⟨12345, 678⟩ ∧
      ∀ text, DiffersOnce (bootMarkerText ⟨12345, 678⟩) text →
        ∃ err, peekBootRecord (some text) = .error err := by
  have hmarker := @marker_integrity_iff ⟨12345, 678⟩ (by decide) (by decide)
  exact ⟨hmarker.1, hmarker.2.mpr (by decide +kernel)⟩

/-- The zero of 209 becomes a line break: the marker of incarnation 209 and epoch 89370696 is
read as that of incarnation 2 and epoch 9, whose checksum is 89370696. -/
theorem damaged_marker_read :
    ∃ text, DiffersOnce (bootMarkerText ⟨209, 89370696⟩) text ∧
      peekBootRecord (some text) = .ok ⟨2, 9⟩ := by
  refine ⟨markerLines ['2'] ['9'] "89370696".toList
    (bootChecksum "209".toList "89370696".toList ++ ['\n']), ?_, ?_⟩
  · exact differsOnce_incarnation (d := '0') (by decide) ['2'] ['9'] _ _
  · decide +kernel

end DrainFabric
