import DrainFabric.Json.Tokens

/-!
# The parser accepts the grammar

A loop over entries reads entries with commas between them, and every such text is read
by the loop (`loop_entries_sound`, `loop_entries_complete`); arrays and objects are its
two instances.

* `parseValue_sound` — what was read is a text of the grammar, within the limits;
* `parseValue_complete` — such a text is read;
* `jsonParse_eq_ok` — whole texts.
-/

namespace DrainFabric

open Lib JsonText JsonGrammar

variable {rounds : Nat} {s : List (String × JsonValue) × Reader}

namespace JsonText

variable {limits : JsonLimits} {reals : RealText} {text rest : List Char}

/-! ### Entries of containers -/

theorem separated_cons_cons (a b : List Char) (rest : List (List Char)) :
    separated (a :: b :: rest) = a ++ ',' :: separated (b :: rest) := by
  simp [separated, List.intercalate]

@[simp] theorem separated_singleton (a : List Char) : separated [a] = a := by
  simp [separated, List.intercalate]

theorem separated_cons (a : List Char) (rest : List (List Char)) :
    ∃ more, separated (a :: rest) = a ++ more := by
  cases rest with
  | nil => exact ⟨[], by rw [separated_singleton, List.append_nil]⟩
  | cons b rest => exact ⟨_, separated_cons_cons a b rest⟩

theorem separated_concat (entries : List (List Char)) (last : List Char) :
    separated (entries ++ [last]) = entries.flatMap (· ++ [',']) ++ last := by
  induction entries with
  | nil => exact separated_singleton last
  | cons a rest ih =>
    cases rest with
    | nil => simp [separated_cons_cons]
    | cons b rest =>
      rw [List.cons_append, List.cons_append, separated_cons_cons, ← List.cons_append, ih]
      simp

/-- What follows an entry of a container ends a number. -/
theorem endsNumber_of_ws {space : List Char} {c : Char} (hspace : Ws space)
    (hc : c = ',' ∨ c = ']' ∨ c = '}') : EndsNumber (space ++ c :: rest) := by
  intro d hd
  cases space with
  | nil =>
    cases hd
    rcases hc with rfl | rfl | rfl <;> decide
  | cons e space =>
    cases hd
    rcases hspace d List.mem_cons_self with rfl | rfl | rfl | rfl <;> decide

section

variable {α : Type} {close : Char} {message : String}

theorem parseSeparator_sound {entries : α} {r : Reader} {next : α × Reader ⊕ α × Reader}
    (h : parseSeparator close message entries r = .ok next) :
    ∃ space r', Ws space ∧ r'.nodes = r.nodes ∧
      ((r.rest = space ++ ',' :: r'.rest ∧ next = .inl (entries, r')) ∨
        (r.rest = space ++ close :: r'.rest ∧ next = .inr (entries, r'))) := by
  obtain ⟨space, hspace, htext⟩ := skipWhitespace_sound r.rest
  simp only [parseSeparator] at h
  split at h
  · rename_i rest hcomma
    cases h
    rw [consume_eq_some.mp hcomma] at htext
    exact ⟨space, { r with rest }, hspace, rfl, Or.inl ⟨htext, rfl⟩⟩
  · rename_i rest _ hclose
    cases h
    rw [consume_eq_some.mp hclose] at htext
    exact ⟨space, { r with rest }, hspace, rfl, Or.inr ⟨htext, rfl⟩⟩
  · cases h

theorem parseSeparator_next {space : List Char} (hspace : Ws space) (entries : α) (nodes : Nat) :
    parseSeparator close message entries { rest := space ++ ',' :: rest, nodes } =
      .ok (.inl (entries, { rest, nodes })) := by
  simp only [parseSeparator, skipWhitespace_append hspace]
  rfl

theorem parseSeparator_close {space : List Char} (hspace : Ws space)
    (hclose : isSpace close = false ∧ close ≠ ',') (entries : α) (nodes : Nat) :
    parseSeparator close message entries { rest := space ++ close :: rest, nodes } =
      .ok (.inr (entries, { rest, nodes })) := by
  have hcomma : consume ',' (close :: rest) = none := if_neg hclose.2
  simp only [parseSeparator, skipWhitespace_append hspace, skipWhitespace_cons hclose.1, hcomma,
    consume_eq_some.mpr rfl]

variable {ε : Type} {whole : ε → List Char} {value : ε → α} {size : ε → Nat}
  {round : List α × Reader → Result (List α × Reader ⊕ List α × Reader)}

/-- A round reads one entry and its separator, and keeps to the limits. -/
structure RoundReads (limits : JsonLimits) (whole : ε → List Char) (value : ε → α)
    (size : ε → Nat) (close : Char) (s : List α × Reader)
    (next : List α × Reader ⊕ List α × Reader) (x : ε) (r' : Reader) : Prop where
  entries : s.1.length < limits.maxContainerEntries
  counted : r'.nodes = s.2.nodes + size x
  room : r'.nodes ≤ limits.maxNodes
  text : (s.2.rest = whole x ++ ',' :: r'.rest ∧ next = .inl (s.1 ++ [value x], r')) ∨
    (s.2.rest = whole x ++ close :: r'.rest ∧ next = .inr (s.1 ++ [value x], r'))

/-- A loop over entries reads entries with commas between them. -/
theorem loop_entries_sound {good : ε → Prop} (hround : ∀ s next, round s = .ok next →
      ∃ x r', good x ∧ RoundReads limits whole value size close s next x r') {r r' : Reader}
    {entries : List α} (h : loop round outOfRounds rounds ([], r) = .ok (entries, r')) :
    ∃ xs : List ε, xs ≠ [] ∧ (∀ x ∈ xs, good x) ∧ entries = xs.map value ∧
      r.rest = separated (xs.map whole) ++ close :: r'.rest ∧
      entries.length ≤ limits.maxContainerEntries ∧
      r'.nodes = r.nodes + (xs.map size).sum ∧ r'.nodes ≤ limits.maxNodes := by
  have hall : ∀ {xs : List ε} {x : ε}, (∀ y ∈ xs, good y) → good x → ∀ y ∈ xs ++ [x], good y :=
    fun hxs hx => List.forall_mem_append.mpr ⟨hxs, List.forall_mem_singleton.mpr hx⟩
  -- Every entry read so far was followed by a comma.
  have hkeep : ∀ s s' : List α × Reader,
      (∃ xs : List ε, (∀ x ∈ xs, good x) ∧ s.1 = xs.map value ∧
        r.rest = (xs.map whole).flatMap (· ++ [',']) ++ s.2.rest ∧
        s.2.nodes = r.nodes + (xs.map size).sum) →
      round s = .ok (.inl s') →
      ∃ xs : List ε, (∀ x ∈ xs, good x) ∧ s'.1 = xs.map value ∧
        r.rest = (xs.map whole).flatMap (· ++ [',']) ++ s'.2.rest ∧
        s'.2.nodes = r.nodes + (xs.map size).sum := by
    rintro s s' ⟨xs, hxs, hvalues, htext, hnodes⟩ hstep
    obtain ⟨x, r', hx, hreads⟩ := hround s _ hstep
    rcases hreads.text with ⟨hrest, hnext⟩ | ⟨-, hnext⟩
    · cases hnext
      refine ⟨xs ++ [x], hall hxs hx, ?_, ?_, ?_⟩
      · rw [hvalues, List.map_append]
        rfl
      · rw [htext, hrest]
        simp
      · rw [hreads.counted, hnodes]
        simp [Nat.add_assoc]
    · cases hnext
  obtain ⟨s, ⟨xs, hxs, hvalues, htext, hnodes⟩, hleave⟩ :=
    loop_invariant hkeep ⟨[], nofun, rfl, rfl, rfl⟩ h
  obtain ⟨x, r'', hx, hreads⟩ := hround s _ hleave
  rcases hreads.text with ⟨-, hnext⟩ | ⟨hrest, hnext⟩
  · cases hnext
  · cases hnext
    refine ⟨xs ++ [x], by simp, hall hxs hx, ?_, ?_, ?_, ?_, hreads.room⟩
    · rw [hvalues, List.map_append]
      rfl
    · rw [htext, hrest, List.map_append, List.map_singleton, separated_concat, List.append_assoc]
    · rw [List.length_append]
      exact hreads.entries
    · rw [hreads.counted, hnodes]
      simp [Nat.add_assoc]

/-- A round takes one entry, up to the comma or the closing character. -/
def RoundTakes (limits : JsonLimits)
    (round : List α × Reader → Result (List α × Reader ⊕ List α × Reader)) (text : List Char)
    (entry : α) (count : Nat) (close : Char) (entries : List α) : Prop :=
  ∀ rest nodes, nodes + count ≤ limits.maxNodes →
    round (entries, { rest := text ++ ',' :: rest, nodes }) =
        .ok (.inl (entries ++ [entry], { rest, nodes := nodes + count })) ∧
      round (entries, { rest := text ++ close :: rest, nodes }) =
        .ok (.inr (entries ++ [entry], { rest, nodes := nodes + count }))

/-- Entries with commas between them are read, one round each. -/
theorem loop_entries_complete {xs : List ε}
    (hround : ∀ pre x post, xs = pre ++ x :: post →
      RoundTakes limits round (whole x) (value x) (size x) close (pre.map value))
    {pre post : List ε} (hxs : xs = pre ++ post) (hpost : post ≠ []) {nodes : Nat}
    (hrounds : post.length ≤ rounds) (hnodes : nodes + (post.map size).sum ≤ limits.maxNodes) :
    loop round outOfRounds rounds
        (pre.map value, { rest := separated (post.map whole) ++ close :: rest, nodes }) =
      .ok (xs.map value, { rest, nodes := nodes + (post.map size).sum }) := by
  induction post generalizing pre rounds nodes with
  | nil => exact absurd rfl hpost
  | cons x post ih =>
    obtain ⟨rounds, rfl⟩ : ∃ k, rounds = k + 1 :=
      ⟨rounds - 1, by rw [List.length_cons] at hrounds; omega⟩
    rw [List.map_cons, List.sum_cons] at hnodes
    cases post with
    | nil =>
      obtain ⟨-, hlast⟩ := hround pre x [] hxs rest nodes (by omega)
      rw [List.map_singleton, separated_singleton, loop_leave hlast, hxs]
      simp
    | cons y post =>
      obtain ⟨hnext, -⟩ := hround pre x (y :: post) hxs
        (separated ((y :: post).map whole) ++ close :: rest) nodes (by omega)
      have htext : separated ((x :: y :: post).map whole) ++ close :: rest =
          whole x ++ ',' :: (separated ((y :: post).map whole) ++ close :: rest) := by
        rw [List.map_cons, List.map_cons, separated_cons_cons, ← List.map_cons,
          List.append_assoc, List.cons_append]
      have hsum : nodes + ((x :: y :: post).map size).sum =
          nodes + size x + ((y :: post).map size).sum := by
        rw [List.map_cons, List.sum_cons, Nat.add_assoc]
      have hmap : pre.map value ++ [value x] = (pre ++ [x]).map value := by simp
      rw [htext, hsum, loop_next hnext, hmap]
      exact ih (by rw [hxs]; simp) (List.cons_ne_nil _ _)
        (by rw [List.length_cons] at hrounds; omega) (by omega)

end

/-! ### What was read is a text of the grammar, within the limits -/

/-- A value was read, from the text between the two readers. -/
structure ReadFrom (limits : JsonLimits) (reals : RealText) (levels : Nat) (r r' : Reader)
    (text : List Char) (value : JsonValue) : Prop where
  rest : r.rest = text ++ r'.rest
  derives : Value reals text value
  distinct : value.Distinct
  fits : value.Fits limits levels
  counted : r'.nodes = r.nodes + value.nodes
  room : r'.nodes ≤ limits.maxNodes

/-- What the parser of one value returns was read. -/
def Sound (limits : JsonLimits) (reals : RealText) (levels : Nat)
    (item : Reader → Result (JsonValue × Reader)) : Prop :=
  ∀ r value r', item r = .ok (value, r') → ∃ text, ReadFrom limits reals levels r r' text value

section

variable {item : Reader → Result (JsonValue × Reader)} {levels : Nat} {r r' : Reader}
  {value : JsonValue}

/-- A round starts by skipping whitespace. -/
theorem arrayRound_skipWhitespace (items : List JsonValue) (r : Reader) :
    arrayRound limits item (items, { r with rest := skipWhitespace r.rest }) =
      arrayRound limits item (items, r) := by
  simp only [arrayRound, skipWhitespace_idem]

theorem objectRound_skipWhitespace (members : List (String × JsonValue)) (r : Reader) :
    objectRound limits item (members, { r with rest := skipWhitespace r.rest }) =
      objectRound limits item (members, r) := by
  simp only [objectRound, skipWhitespace_idem]

/-- An array that is not empty is what its rounds read. -/
theorem parseArray_open (h : consume ']' (skipWhitespace r.rest) = none) :
    parseArray limits item r = (do
      let (items, r) ← loop (arrayRound limits item) outOfRounds (r.rest.length + 1) ([], r)
      return (.array items, r)) := by
  simp only [parseArray, h]
  rw [loop_congr (arrayRound_skipWhitespace [] r)]

theorem parseObject_open (h : consume '}' (skipWhitespace r.rest) = none) :
    parseObject limits item r = (do
      let (members, r) ← loop (objectRound limits item) outOfRounds (r.rest.length + 1) ([], r)
      return (.object members, r)) := by
  simp only [parseObject, h]
  rw [loop_congr (objectRound_skipWhitespace [] r)]

/-- An item of an array, as it was read. -/
structure GoodItem (limits : JsonLimits) (reals : RealText) (levels : Nat) (x : Item) : Prop where
  spaced : x.Spaced
  derives : Value reals x.text x.value
  distinct : x.value.Distinct
  fits : x.value.Fits limits levels

theorem arrayRound_sound (hitem : Sound limits reals levels item) (s : List JsonValue × Reader)
    (next : List JsonValue × Reader ⊕ List JsonValue × Reader)
    (h : arrayRound limits item s = .ok next) :
    ∃ x r', GoodItem limits reals levels x ∧
      RoundReads limits Item.whole Item.value (fun x => x.value.nodes) ']' s next x r' := by
  simp only [arrayRound, bind_eq_ok, rejectIf_eq_ok] at h
  obtain ⟨_, hentries, ⟨value, r⟩, hvalue, hsep⟩ := h
  obtain ⟨before, hbefore, hstart⟩ := skipWhitespace_sound s.2.rest
  obtain ⟨text, hread⟩ := hitem _ _ _ hvalue
  obtain ⟨after, r', hafter, hnodes, hnext⟩ := parseSeparator_sound hsep
  have htext : skipWhitespace s.2.rest = text ++ r.rest := hread.rest
  refine ⟨{ before, text, after, value }, r',
    ⟨⟨hbefore, hafter⟩, hread.derives, hread.distinct, hread.fits⟩,
    ⟨Nat.not_le.mp hentries, hnodes.trans hread.counted, hnodes.trans_le hread.room, ?_⟩⟩
  rw [hstart, htext, Item.whole]
  rcases hnext with ⟨hrest, rfl⟩ | ⟨hrest, rfl⟩
  · exact Or.inl ⟨by rw [hrest]; simp, rfl⟩
  · exact Or.inr ⟨by rw [hrest]; simp, rfl⟩

/-- The rest of an array, after the bracket and the node that was counted for it. -/
theorem parseArray_sound (hitem : Sound limits reals levels item) {nodes : Nat}
    (hnodes : nodes + 1 ≤ limits.maxNodes)
    (h : parseArray limits item { rest, nodes := nodes + 1 } = .ok (value, r')) :
    ∃ text, ReadFrom limits reals (levels + 1) { rest := '[' :: rest, nodes } r' text value := by
  cases hclose : consume ']' (skipWhitespace rest) with
  | some after =>
    simp only [parseArray, hclose] at h
    cases h
    obtain ⟨space, hspace, hstart⟩ := skipWhitespace_sound rest
    refine ⟨_, ⟨?_, .emptyArray hspace, .array nofun, ⟨Nat.zero_le _, nofun⟩, rfl, hnodes⟩⟩
    dsimp only
    rw [hstart, consume_eq_some.mp hclose]
    simp
  | none =>
    rw [parseArray_open hclose] at h
    simp only [bind_eq_ok, pure_eq_ok, Prod.mk.injEq] at h
    obtain ⟨⟨items, last⟩, hloop, rfl, rfl⟩ := h
    obtain ⟨xs, hne, hgood, rfl, htext, hentries, hcounted, hroom⟩ :=
      loop_entries_sound (arrayRound_sound hitem) hloop
    have hall : ∀ y ∈ xs.map Item.value, y.Distinct ∧ y.Fits limits levels := by
      intro y hy
      obtain ⟨x, hx, rfl⟩ := List.mem_map.mp hy
      exact ⟨(hgood x hx).distinct, (hgood x hx).fits⟩
    refine ⟨_, ⟨?_, .array hne (fun x hx => (hgood x hx).spaced) (fun x hx => (hgood x hx).derives),
      .array (fun y hy => (hall y hy).1), ⟨hentries, fun y hy => (hall y hy).2⟩, ?_, hroom⟩⟩
    · dsimp only at htext ⊢
      rw [htext]
      simp
    · rw [hcounted, JsonValue.nodes, JsonValue.nodesOf_eq_sum, List.map_map, Nat.add_assoc]
      rfl

/-- A member of an object, as it was read. -/
structure GoodMember (limits : JsonLimits) (reals : RealText) (levels : Nat) (m : Member) :
    Prop where
  formed : m.WellFormed
  derives : Value reals m.item.text m.item.value
  distinct : m.item.value.Distinct
  fits : m.item.value.Fits limits levels
  key : m.key.length ≤ limits.maxStringBytes

theorem objectRound_sound (hitem : Sound limits reals levels item)
    (s : List (String × JsonValue) × Reader)
    (next : List (String × JsonValue) × Reader ⊕ List (String × JsonValue) × Reader)
    (h : objectRound limits item s = .ok next) :
    ∃ m r', GoodMember limits reals levels m ∧
      RoundReads limits Member.whole Member.entry (fun m => m.item.value.nodes) '}' s next m r' := by
  simp only [objectRound, bind_eq_ok, orFail_eq_ok, rejectIf_eq_ok] at h
  obtain ⟨rest₁, hquote, ⟨_, rest₂⟩, hkey, _, hentries, _, -, rest₃, hcolon, ⟨value, r⟩, hvalue,
    hsep⟩ := h
  obtain ⟨keyText, key, hchars, hrest₁, rfl, hlen⟩ := parseString_sound hkey
  obtain ⟨before, hbefore, hstart⟩ := skipWhitespace_sound s.2.rest
  obtain ⟨beforeColon, hbeforeColon, hrest₂⟩ := skipWhitespace_sound rest₂
  obtain ⟨beforeValue, hbeforeValue, hrest₃⟩ := skipWhitespace_sound rest₃
  obtain ⟨text, hread⟩ := hitem _ _ _ hvalue
  obtain ⟨after, r', hafter, hnodes, hnext⟩ := parseSeparator_sound hsep
  have htext : skipWhitespace rest₃ = text ++ r.rest := hread.rest
  refine ⟨{ before, keyText, key, beforeColon, item := { before := beforeValue, text, after, value } },
    r', ⟨⟨hbefore, hchars, hbeforeColon, hbeforeValue, hafter⟩, hread.derives, hread.distinct,
      hread.fits, hlen⟩,
    ⟨Nat.not_le.mp hentries, hnodes.trans hread.counted, hnodes.trans_le hread.room, ?_⟩⟩
  rw [hstart, consume_eq_some.mp hquote, hrest₁, hrest₂, consume_eq_some.mp hcolon, hrest₃, htext,
    Member.whole, Item.whole]
  rcases hnext with ⟨hrest, rfl⟩ | ⟨hrest, rfl⟩
  · exact Or.inl ⟨by rw [hrest]; simp, rfl⟩
  · exact Or.inr ⟨by rw [hrest]; simp, rfl⟩

/-- A key that was read before is refused. -/
theorem objectRound_nodup
    {next : List (String × JsonValue) × Reader ⊕ List (String × JsonValue) × Reader}
    (hs : (s.1.map Prod.fst).Nodup) (h : objectRound limits item s = .ok next) :
    ((next.elim id id).1.map Prod.fst).Nodup := by
  simp only [objectRound, bind_eq_ok, rejectIf_eq_ok] at h
  obtain ⟨_, -, ⟨key, _⟩, -, _, -, _, hnew, _, -, ⟨value, r⟩, -, hsep⟩ := h
  have hadded : ((s.1 ++ [(key, value)]).map Prod.fst).Nodup := by
    rw [List.map_append, List.map_singleton, List.nodup_append]
    refine ⟨hs, by simp, ?_⟩
    rintro key' hold _ hadded rfl
    rw [List.mem_singleton.mp hadded] at hold
    exact hnew hold
  obtain ⟨_, r', -, -, ⟨-, rfl⟩ | ⟨-, rfl⟩⟩ := parseSeparator_sound hsep
  · exact hadded
  · exact hadded

theorem loop_objectRound_nodup {members : List (String × JsonValue)}
    (h : loop (objectRound limits item) outOfRounds rounds ([], r) = .ok (members, r')) :
    (members.map Prod.fst).Nodup := by
  have hkeep : ∀ s s' : List (String × JsonValue) × Reader, (s.1.map Prod.fst).Nodup →
      objectRound limits item s = .ok (.inl s') → (s'.1.map Prod.fst).Nodup :=
    fun s s' hs hround => objectRound_nodup hs hround
  have hstart : (([] : List (String × JsonValue)).map Prod.fst).Nodup := List.nodup_nil
  obtain ⟨s, hs, hleave⟩ := loop_invariant hkeep hstart h
  exact objectRound_nodup hs hleave

/-- The rest of an object, after the brace and the node that was counted for it. -/
theorem parseObject_sound (hitem : Sound limits reals levels item) {nodes : Nat}
    (hnodes : nodes + 1 ≤ limits.maxNodes)
    (h : parseObject limits item { rest, nodes := nodes + 1 } = .ok (value, r')) :
    ∃ text, ReadFrom limits reals (levels + 1) { rest := '{' :: rest, nodes } r' text value := by
  cases hclose : consume '}' (skipWhitespace rest) with
  | some after =>
    simp only [parseObject, hclose] at h
    cases h
    obtain ⟨space, hspace, hstart⟩ := skipWhitespace_sound rest
    refine ⟨_, ⟨?_, .emptyObject hspace, .object List.nodup_nil nofun, ⟨Nat.zero_le _, nofun⟩,
      rfl, hnodes⟩⟩
    dsimp only
    rw [hstart, consume_eq_some.mp hclose]
    simp
  | none =>
    rw [parseObject_open hclose] at h
    simp only [bind_eq_ok, pure_eq_ok, Prod.mk.injEq] at h
    obtain ⟨⟨members, last⟩, hloop, rfl, rfl⟩ := h
    have hnodup := loop_objectRound_nodup hloop
    obtain ⟨ms, hne, hgood, rfl, htext, hentries, hcounted, hroom⟩ :=
      loop_entries_sound (objectRound_sound hitem) hloop
    have hall : ∀ entry ∈ ms.map Member.entry, entry.2.Distinct ∧
        entry.1.length ≤ limits.maxStringBytes ∧ entry.2.Fits limits levels := by
      intro entry hentry
      obtain ⟨m, hm, rfl⟩ := List.mem_map.mp hentry
      refine ⟨(hgood m hm).distinct, ?_, (hgood m hm).fits⟩
      rw [Member.entry, String.length_ofList]
      exact (hgood m hm).key
    refine ⟨_, ⟨?_, .object hne (fun m hm => (hgood m hm).formed)
      (fun m hm => (hgood m hm).derives), .object hnodup (fun entry he => (hall entry he).1),
      ⟨hentries, fun entry he => (hall entry he).2⟩, ?_, hroom⟩⟩
    · dsimp only at htext ⊢
      rw [htext]
      simp
    · rw [hcounted, JsonValue.nodes, JsonValue.nodesUnder_eq_sum, List.map_map, Nat.add_assoc]
      rfl

/-- A leaf was read, after the node that was counted for it. -/
theorem readFrom_leaf (hnodes : r.nodes + 1 ≤ limits.maxNodes) (hrest : r.rest = text ++ rest)
    (hderives : Value reals text value) (hfits : value.Fits limits (levels + 1))
    (harray : value.isArray = false) (hobject : value.isObject = false) :
    ReadFrom limits reals (levels + 1) r { rest, nodes := r.nodes + 1 } text value := by
  refine ⟨hrest, hderives, .leaf harray hobject, hfits, ?_, hnodes⟩
  cases value with
  | array | object => simp_all [JsonValue.isArray]
  | _ => rfl

theorem parseLiteral_sound {literal : List Char} {leaf : JsonValue}
    (h : parseLiteral literal leaf r = .ok (value, r')) :
    value = leaf ∧ ∃ rest, r.rest = literal ++ rest ∧ r' = { r with rest } := by
  simp only [parseLiteral, bind_eq_ok, pure_eq_ok, rejectIf_eq_ok, not_not, Prod.mk.injEq] at h
  obtain ⟨_, hliteral, rfl, rfl⟩ := h
  refine ⟨rfl, _, ?_, rfl⟩
  conv_lhs => rw [← List.take_append_drop literal.length r.rest, hliteral]

end

/-- A value that was read was read from a text of the grammar, and is within the limits. -/
theorem parseValue_sound (limits : JsonLimits) (reals : RealText) (levels : Nat) :
    Sound limits reals levels (parseValue limits reals levels) := by
  induction levels with
  | zero =>
    intro r value r' h
    cases h
  | succ levels ih =>
    intro r value r' h
    simp only [parseValue, countNode, bind_eq_ok, pure_eq_ok, rejectIf_eq_ok] at h
    obtain ⟨_, ⟨_, hnodes, rfl⟩, h⟩ := h
    have hone : r.nodes + 1 ≤ limits.maxNodes := Nat.not_lt.mp hnodes
    obtain ⟨rest, nodes⟩ := r
    dsimp only at h hone
    split at h
    · cases h
    · exact parseObject_sound ih hone h
    · exact parseArray_sound ih hone h
    · simp only [bind_eq_ok, pure_eq_ok, Prod.mk.injEq] at h
      obtain ⟨⟨text, last⟩, hstring, rfl, rfl⟩ := h
      obtain ⟨chars, bytes, hchars, rfl, rfl, hlen⟩ := parseString_sound hstring
      refine ⟨_, readFrom_leaf hone (by simp) (.string hchars) ?_ rfl rfl⟩
      rwa [JsonValue.Fits, String.length_ofList]
    · obtain ⟨rfl, rest, hrest, rfl⟩ := parseLiteral_sound h
      exact ⟨_, readFrom_leaf hone hrest .true trivial rfl rfl⟩
    · obtain ⟨rfl, rest, hrest, rfl⟩ := parseLiteral_sound h
      exact ⟨_, readFrom_leaf hone hrest .false trivial rfl rfl⟩
    · obtain ⟨rfl, rest, hrest, rfl⟩ := parseLiteral_sound h
      exact ⟨_, readFrom_leaf hone hrest .null trivial rfl rfl⟩
    · simp only [bind_eq_ok, pure_eq_ok, Prod.mk.injEq] at h
      obtain ⟨⟨number, last⟩, hnumber, rfl, rfl⟩ := h
      obtain ⟨n, hformed, hfinite, rfl, htext⟩ := parseNumber_sound hnumber
      have hvalue := Value.number n hformed hfinite
      rcases value_number_cases reals n with ⟨_, hn⟩ | ⟨_, hn⟩ | ⟨_, hn⟩
      all_goals
        rw [hn] at hvalue ⊢
        exact ⟨_, readFrom_leaf hone htext hvalue trivial rfl rfl⟩

/-! ### A text of the grammar is read -/

section

variable {nodes levels : Nat}

theorem countNode_ok (hnodes : nodes + 1 ≤ limits.maxNodes) (rest : List Char) :
    countNode limits { rest, nodes } = .ok { rest, nodes := nodes + 1 } := by
  rw [countNode, rejectIf, if_neg (Nat.not_lt.mpr hnodes)]
  rfl

theorem parseValue_array (hnodes : nodes + 1 ≤ limits.maxNodes) :
    parseValue limits reals (levels + 1) { rest := '[' :: text, nodes } =
      parseArray limits (parseValue limits reals levels) { rest := text, nodes := nodes + 1 } := by
  rw [parseValue, countNode_ok hnodes]
  rfl

theorem parseValue_object (hnodes : nodes + 1 ≤ limits.maxNodes) :
    parseValue limits reals (levels + 1) { rest := '{' :: text, nodes } =
      parseObject limits (parseValue limits reals levels) { rest := text, nodes := nodes + 1 } := by
  rw [parseValue, countNode_ok hnodes]
  rfl

/-- A number starts with a digit or a sign. -/
theorem head_number {n : Number} (h : n.WellFormed) :
    ∃ c tail, n.text = c :: tail ∧ (c.isDigit = true ∨ c = '-') := by
  obtain ⟨c, tail, hint, hdigit⟩ := head_intPart h.int
  rw [Number.text, hint]
  cases n.minus with
  | true => exact ⟨_, _, rfl, Or.inr rfl⟩
  | false => exact ⟨_, _, rfl, Or.inl hdigit⟩

/-- A value that starts with a digit or a sign is read as a number. -/
theorem parseValue_number {c : Char} (hc : c.isDigit = true ∨ c = '-')
    (hnodes : nodes + 1 ≤ limits.maxNodes) {value : JsonValue}
    (hnumber : parseNumber reals (c :: text) = .ok (value, rest)) :
    parseValue limits reals (levels + 1) { rest := c :: text, nodes } =
      .ok (value, { rest, nodes := nodes + 1 }) := by
  have hother : ∀ d ∈ ['{', '[', '"', 't', 'f', 'n'], c ≠ d := by
    rintro d hd rfl
    rcases hc with hc | rfl
    · simp only [List.mem_cons, List.not_mem_nil, or_false] at hd
      rcases hd with rfl | rfl | rfl | rfl | rfl | rfl <;> exact absurd hc (by decide)
    · exact absurd hd (by decide)
  rw [parseValue, countNode_ok hnodes, ok_bind]
  split
  case h_8 =>
    rw [hnumber]
    rfl
  all_goals
    rename_i heq
    cases heq
    try exact absurd rfl (hother _ (by decide))

/-- A value starts with a character that is neither space nor a closing bracket. -/
theorem head_value {value : JsonValue} (h : Value reals text value) :
    ∃ c tail, text = c :: tail ∧ isSpace c = false ∧ c ≠ ']' := by
  cases h with
  | number n hformed =>
    obtain ⟨c, tail, htext, hc⟩ := head_number hformed
    refine ⟨c, tail, htext, ?_, ?_⟩
    · rw [Bool.eq_false_iff]
      intro hspace
      rcases isSpace_iff.mp hspace with rfl | rfl | rfl | rfl <;> exact absurd hc (by decide)
    · rintro rfl
      exact absurd hc (by decide)
  | _ => exact ⟨_, _, rfl, rfl, by decide⟩

/-- What the parser of one value does with a text for it. -/
def Reads (limits : JsonLimits) (item : Reader → Result (JsonValue × Reader)) (text : List Char)
    (value : JsonValue) : Prop :=
  ∀ rest nodes, EndsNumber rest → nodes + value.nodes ≤ limits.maxNodes →
    item { rest := text ++ rest, nodes } = .ok (value, { rest, nodes := nodes + value.nodes })

variable {item : Reader → Result (JsonValue × Reader)}

theorem skipWhitespace_whole {x : Item} (hspaced : x.Spaced) (hvalue : Value reals x.text x.value)
    (rest : List Char) : skipWhitespace (x.whole ++ rest) = x.text ++ (x.after ++ rest) := by
  obtain ⟨d, tail, htext, hspace, -⟩ := head_value hvalue
  rw [Item.whole, List.append_assoc, List.append_assoc, skipWhitespace_append hspaced.1, htext]
  exact skipWhitespace_cons hspace _

/-- An item with what follows it, up to the separator. -/
theorem item_skipWhitespace {x : Item} (hspaced : x.Spaced) (hvalue : Value reals x.text x.value)
    (hreads : Reads limits item x.text x.value) {c : Char} (hc : c = ',' ∨ c = ']' ∨ c = '}')
    (hnodes : nodes + x.value.nodes ≤ limits.maxNodes) :
    item { rest := skipWhitespace (x.whole ++ c :: rest), nodes } =
      .ok (x.value, { rest := x.after ++ c :: rest, nodes := nodes + x.value.nodes }) := by
  rw [skipWhitespace_whole hspaced hvalue]
  exact hreads _ _ (endsNumber_of_ws hspaced.2 hc) hnodes

/-- One round of the loop over the items, up to the comma or the bracket. -/
theorem arrayRound_complete {items : List JsonValue} {x : Item} (hspaced : x.Spaced)
    (hvalue : Value reals x.text x.value) (hreads : Reads limits item x.text x.value)
    (hentries : items.length < limits.maxContainerEntries) :
    RoundTakes limits (arrayRound limits item) x.whole x.value x.value.nodes ']' items := by
  intro rest nodes hnodes
  constructor
  · simp only [arrayRound, rejectIf, if_neg (Nat.not_le.mpr hentries), ok_bind,
      item_skipWhitespace hspaced hvalue hreads (c := ',') (by decide) hnodes]
    exact parseSeparator_next hspaced.2 _ _
  · simp only [arrayRound, rejectIf, if_neg (Nat.not_le.mpr hentries), ok_bind,
      item_skipWhitespace hspaced hvalue hreads (c := ']') (by decide) hnodes]
    exact parseSeparator_close hspaced.2 (by decide) _ _

theorem length_separated {ε : Type} (whole : ε → List Char) (xs : List ε) :
    xs.length ≤ (separated (xs.map whole)).length + 1 := by
  induction xs with
  | nil => exact Nat.zero_le _
  | cons x xs ih =>
    cases xs with
    | nil => exact Nat.le_add_left _ _
    | cons y xs =>
      rw [List.map_cons] at ih
      rw [List.map_cons, List.map_cons, separated_cons_cons, List.length_append,
        List.length_cons, List.length_cons]
      rw [List.length_cons] at ih ⊢
      omega

theorem parseArray_complete {items : List Item} (hne : items ≠ [])
    (hspaced : ∀ x ∈ items, x.Spaced) (hvalue : ∀ x ∈ items, Value reals x.text x.value)
    (hreads : ∀ x ∈ items, Reads limits item x.text x.value)
    (hentries : items.length ≤ limits.maxContainerEntries)
    (hnodes : nodes + (items.map (fun x => x.value.nodes)).sum ≤ limits.maxNodes) :
    parseArray limits item { rest := separated (items.map Item.whole) ++ ']' :: rest, nodes } =
      .ok (.array (items.map Item.value),
        { rest, nodes := nodes + (items.map (fun x => x.value.nodes)).sum }) := by
  have hopen : consume ']' (skipWhitespace
      (separated (items.map Item.whole) ++ ']' :: rest)) = none := by
    obtain ⟨x, tail, rfl⟩ := List.exists_cons_of_ne_nil hne
    obtain ⟨more, hmore⟩ := separated_cons x.whole (tail.map Item.whole)
    obtain ⟨d, text, htext, -, hbracket⟩ := head_value (hvalue x List.mem_cons_self)
    rw [List.map_cons, hmore, List.append_assoc,
      skipWhitespace_whole (hspaced x List.mem_cons_self) (hvalue x List.mem_cons_self), htext]
    exact if_neg hbracket
  have hround : ∀ pre x post, items = pre ++ x :: post → RoundTakes limits
      (arrayRound limits item) x.whole x.value x.value.nodes ']' (pre.map Item.value) := by
    intro pre x post hitems
    have hx : x ∈ items := by rw [hitems]; simp
    have hlen : (pre.map Item.value).length < limits.maxContainerEntries := by
      rw [hitems, List.length_append, List.length_cons] at hentries
      rw [List.length_map]
      omega
    exact arrayRound_complete (hspaced x hx) (hvalue x hx) (hreads x hx) hlen
  have hlen := length_separated Item.whole items
  rw [parseArray_open hopen]
  show (loop _ _ _ (([] : List Item).map Item.value, _) >>= _) = _
  rw [loop_entries_complete hround (List.nil_append items).symm hne ?_ hnodes]
  · rfl
  · rw [List.length_append]
    omega

/-- One round of the loop over the members, up to the comma or the brace. -/
theorem objectRound_complete {members : List (String × JsonValue)} {m : Member}
    (hformed : m.WellFormed) (hvalue : Value reals m.item.text m.item.value)
    (hreads : Reads limits item m.item.text m.item.value)
    (hkey : m.key.length ≤ limits.maxStringBytes)
    (hentries : members.length < limits.maxContainerEntries)
    (hnew : String.ofList m.key ∉ members.map Prod.fst) :
    RoundTakes limits (objectRound limits item) m.whole m.entry m.item.value.nodes '}' members := by
  intro rest nodes hnodes
  obtain ⟨hbefore, hchars, hbeforeColon, hspaced⟩ := hformed
  -- Up to the value nothing depends on what follows the member.
  have hround : ∀ c, c = ',' ∨ c = ']' ∨ c = '}' →
      objectRound limits item (members, { rest := m.whole ++ c :: rest, nodes }) =
        parseSeparator '}' "expected ',' or '\x7d' in json object" (members ++ [m.entry])
          { rest := m.item.after ++ c :: rest, nodes := nodes + m.item.value.nodes } := by
    intro c hc
    have hquote : consume '"' (skipWhitespace (m.whole ++ c :: rest)) =
        some (m.keyText ++ '"' :: (m.beforeColon ++ ':' :: (m.item.whole ++ c :: rest))) := by
      rw [consume_eq_some, Member.whole, List.append_assoc, skipWhitespace_append hbefore]
      simp only [List.cons_append, List.append_assoc]
      exact skipWhitespace_cons rfl _
    have hcolon : consume ':' (skipWhitespace (m.beforeColon ++ ':' :: (m.item.whole ++ c :: rest))) =
        some (m.item.whole ++ c :: rest) := by
      rw [consume_eq_some, skipWhitespace_append hbeforeColon]
      exact skipWhitespace_cons rfl _
    simp only [objectRound, hquote, hcolon, orFail, ok_bind, parseString_complete hchars hkey,
      rejectIf, if_neg (Nat.not_le.mpr hentries), if_neg hnew,
      item_skipWhitespace hspaced hvalue hreads hc hnodes]
    rfl
  constructor
  · rw [hround ',' (by decide)]
    exact parseSeparator_next hspaced.2 _ _
  · rw [hround '}' (by decide)]
    exact parseSeparator_close hspaced.2 (by decide) _ _

theorem parseObject_complete {members : List Member} (hne : members ≠ [])
    (hformed : ∀ m ∈ members, m.WellFormed)
    (hvalue : ∀ m ∈ members, Value reals m.item.text m.item.value)
    (hreads : ∀ m ∈ members, Reads limits item m.item.text m.item.value)
    (hkeys : ∀ m ∈ members, m.key.length ≤ limits.maxStringBytes)
    (hnodup : ((members.map Member.entry).map Prod.fst).Nodup)
    (hentries : members.length ≤ limits.maxContainerEntries)
    (hnodes : nodes + (members.map (fun m => m.item.value.nodes)).sum ≤ limits.maxNodes) :
    parseObject limits item { rest := separated (members.map Member.whole) ++ '}' :: rest, nodes } =
      .ok (.object (members.map Member.entry),
        { rest, nodes := nodes + (members.map (fun m => m.item.value.nodes)).sum }) := by
  have hopen : consume '}' (skipWhitespace
      (separated (members.map Member.whole) ++ '}' :: rest)) = none := by
    obtain ⟨m, tail, rfl⟩ := List.exists_cons_of_ne_nil hne
    obtain ⟨more, hmore⟩ := separated_cons m.whole (tail.map Member.whole)
    rw [List.map_cons, hmore, Member.whole, List.append_assoc, List.append_assoc,
      skipWhitespace_append (hformed m List.mem_cons_self).1]
    rfl
  have hround : ∀ pre m post, members = pre ++ m :: post → RoundTakes limits
      (objectRound limits item) m.whole m.entry m.item.value.nodes '}' (pre.map Member.entry) := by
    intro pre m post hmembers
    have hm : m ∈ members := by rw [hmembers]; simp
    have hlen : (pre.map Member.entry).length < limits.maxContainerEntries := by
      rw [hmembers, List.length_append, List.length_cons] at hentries
      rw [List.length_map]
      omega
    have hnew : String.ofList m.key ∉ (pre.map Member.entry).map Prod.fst := by
      rw [hmembers, List.map_append, List.map_append, List.nodup_append] at hnodup
      exact fun hold => hnodup.2.2 _ hold _ List.mem_cons_self rfl
    exact objectRound_complete (hformed m hm) (hvalue m hm) (hreads m hm) (hkeys m hm) hlen hnew
  have hlen := length_separated Member.whole members
  rw [parseObject_open hopen]
  show (loop _ _ _ (([] : List Member).map Member.entry, _) >>= _) = _
  rw [loop_entries_complete hround (List.nil_append members).symm hne ?_ hnodes]
  · rfl
  · rw [List.length_append]
    omega

end

theorem nodes_number (n : Number) : (n.value reals).nodes = 1 := by
  rcases value_number_cases reals n with ⟨_, h⟩ | ⟨_, h⟩ | ⟨_, h⟩ <;> rw [h] <;> rfl

/-- A text for a value within the limits is read. -/
theorem parseValue_complete {value : JsonValue} (h : Value reals text value)
    (hdistinct : value.Distinct) {levels : Nat} (hfits : value.Fits limits levels) :
    Reads limits (parseValue limits reals levels) text value := by
  induction levels generalizing text value with
  | zero => exact hfits.elim
  | succ levels ih =>
    intro rest nodes hrest hnodes
    have hone : nodes + 1 ≤ limits.maxNodes := by
      have hpos := value.nodes_pos
      omega
    cases h with
    | null | true | false =>
      rw [parseValue, countNode_ok hone]
      rfl
    | number n hformed hfinite =>
      obtain ⟨c, tail, htext, hc⟩ := head_number hformed
      have hnumber := parseNumber_complete hformed hfinite hrest
      rw [htext, List.cons_append] at hnumber ⊢
      rw [parseValue_number hc hone hnumber, nodes_number]
    | @string chars bytes hchars =>
      have hlen : bytes.length ≤ limits.maxStringBytes := by
        rwa [JsonValue.Fits, String.length_ofList] at hfits
      rw [parseValue, countNode_ok hone, ok_bind, List.cons_append, List.append_assoc,
        List.singleton_append]
      show (parseString limits (chars ++ '"' :: rest) >>= _) = _
      rw [parseString_complete hchars hlen]
      rfl
    | @emptyArray space hspace =>
      rw [List.cons_append, parseValue_array hone, List.append_assoc, List.singleton_append]
      simp only [parseArray, skipWhitespace_append hspace]
      rfl
    | @array items hne hspaced hvalue =>
      cases hdistinct with
      | leaf harray => cases harray
      | array hdistinct =>
        have hitem : ∀ x ∈ items,
            Reads limits (parseValue limits reals levels) x.text x.value := fun x hx =>
          ih (hvalue x hx) (hdistinct _ (List.mem_map_of_mem hx))
            (hfits.2 _ (List.mem_map_of_mem hx))
        have hcount : (JsonValue.array (items.map Item.value)).nodes =
            1 + (items.map (fun x => x.value.nodes)).sum := by
          rw [JsonValue.nodes, JsonValue.nodesOf_eq_sum, List.map_map]
          rfl
        rw [hcount] at hnodes ⊢
        rw [List.cons_append, parseValue_array hone, List.append_assoc,
          List.singleton_append, parseArray_complete hne hspaced hvalue hitem
            (by simpa using hfits.1) (by omega), Nat.add_assoc]
    | @emptyObject space hspace =>
      rw [List.cons_append, parseValue_object hone, List.append_assoc, List.singleton_append]
      simp only [parseObject, skipWhitespace_append hspace]
      rfl
    | @object members hne hformed hvalue =>
      cases hdistinct with
      | leaf _ hobject => cases hobject
      | object hnodup hdistinct =>
        have hitem : ∀ m ∈ members,
            Reads limits (parseValue limits reals levels) m.item.text m.item.value :=
          fun m hm => ih (hvalue m hm) (hdistinct _ (List.mem_map_of_mem hm))
            (hfits.2 _ (List.mem_map_of_mem hm)).2
        have hkeys : ∀ m ∈ members, m.key.length ≤ limits.maxStringBytes := by
          intro m hm
          have hkey := (hfits.2 _ (List.mem_map_of_mem hm)).1
          rwa [Member.entry, String.length_ofList] at hkey
        have hcount : (JsonValue.object (members.map Member.entry)).nodes =
            1 + (members.map (fun m => m.item.value.nodes)).sum := by
          rw [JsonValue.nodes, JsonValue.nodesUnder_eq_sum, List.map_map]
          rfl
        rw [hcount] at hnodes ⊢
        rw [List.cons_append, parseValue_object hone, List.append_assoc,
          List.singleton_append, parseObject_complete hne hformed hvalue hitem hkeys hnodup
            (by simpa using hfits.1) (by omega), Nat.add_assoc]

/-! ### The bounds on the rounds are never felt -/

theorem loop_stringRound_rounds {out : List Char} (h : text.length < rounds) :
    loop (stringRound limits) outOfRounds rounds (out, text) =
      loop (stringRound limits) outOfRounds (text.length + 1) (out, text) := by
  have hlower : ∀ s s' : List Char × List Char, stringRound limits s = .ok (.inl s') →
      s'.2.length < s.2.length := by
    rintro ⟨out, text⟩ s' hround
    rcases stringRound_eq_ok.mp hround with ⟨_, -, hdone⟩ | ⟨char, _, _, hchar, rfl, -, hnext⟩
    · cases hdone
    · cases hnext
      rw [List.length_append]
      exact Nat.lt_add_of_pos_left (List.length_pos_iff.mpr hchar.ne_nil)
  exact loop_measure hlower h (Nat.lt_succ_self _)

/-- A round that goes on has taken text. -/
theorem loop_entries_rounds {α ε : Type} {whole : ε → List Char} {value : ε → α} {size : ε → Nat}
    {close : Char} {good : ε → Prop}
    {round : List α × Reader → Result (List α × Reader ⊕ List α × Reader)}
    (hround : ∀ s next, round s = .ok next →
      ∃ x r', good x ∧ RoundReads limits whole value size close s next x r')
    {s : List α × Reader} (h : s.2.rest.length < rounds) :
    loop round outOfRounds rounds s = loop round outOfRounds (s.2.rest.length + 1) s := by
  have hlower : ∀ s s' : List α × Reader, round s = .ok (.inl s') →
      s'.2.rest.length < s.2.rest.length := by
    intro s s' hstep
    obtain ⟨_, _, -, hreads⟩ := hround s _ hstep
    rcases hreads.text with ⟨hrest, hnext⟩ | ⟨-, hnext⟩
    · cases hnext
      rw [hrest, List.length_append, List.length_cons]
      exact Nat.lt_of_lt_of_le (Nat.lt_succ_self _) (Nat.le_add_left _ _)
    · cases hnext
  exact loop_measure hlower h (Nat.lt_succ_self _)

theorem loop_arrayRound_rounds (levels : Nat) {s : List JsonValue × Reader}
    (h : s.2.rest.length < rounds) :
    loop (arrayRound limits (parseValue limits reals levels)) outOfRounds rounds s =
      loop (arrayRound limits (parseValue limits reals levels)) outOfRounds
        (s.2.rest.length + 1) s :=
  loop_entries_rounds (arrayRound_sound (parseValue_sound limits reals levels)) h

theorem loop_objectRound_rounds (levels : Nat) (h : s.2.rest.length < rounds) :
    loop (objectRound limits (parseValue limits reals levels)) outOfRounds rounds s =
      loop (objectRound limits (parseValue limits reals levels)) outOfRounds
        (s.2.rest.length + 1) s :=
  loop_entries_rounds (objectRound_sound (parseValue_sound limits reals levels)) h

end JsonText

/-! ### Whole texts -/

/-- The parser returns a value exactly when the text is one for it, and the limits are
kept. -/
theorem jsonParse_eq_ok {reals : RealText} {limits : JsonLimits} {text : List Char}
    {value : JsonValue} :
    jsonParse reals text limits = .ok value ↔
      Text reals text value ∧ value.Distinct ∧ value.Within limits ∧
        text.length ≤ limits.maxTotalBytes := by
  simp only [jsonParse, bind_eq_ok, pure_eq_ok, rejectIf_eq_ok, not_not, Nat.not_lt]
  constructor
  · rintro ⟨_, hlen, ⟨value, r⟩, hvalue, _, hend, rfl⟩
    obtain ⟨body, hread⟩ := parseValue_sound limits reals _ _ _ _ hvalue
    obtain ⟨before, hbefore, hstart⟩ := skipWhitespace_sound text
    obtain ⟨after, hafter, hrest⟩ := skipWhitespace_sound r.rest
    have hbody : skipWhitespace text = body ++ r.rest := hread.rest
    dsimp only at hend
    rw [hend, List.append_nil] at hrest
    refine ⟨⟨before, body, after, ?_, hbefore, hafter, hread.derives⟩, hread.distinct,
      ⟨hread.fits, ?_⟩, hlen⟩
    · rw [hstart, hbody, hrest, List.append_assoc]
    · have hcounted := hread.counted
      rw [Nat.zero_add] at hcounted
      rw [← hcounted]
      exact hread.room
  · rintro ⟨⟨before, body, after, rfl, hbefore, hafter, hderives⟩, hdistinct, hwithin, hlen⟩
    have hends : EndsNumber after := by
      intro c hc
      rcases hafter c (List.mem_of_mem_head? hc) with rfl | rfl | rfl | rfl <;> decide
    have hskip : skipWhitespace (before ++ body ++ after) = body ++ after := by
      obtain ⟨c, tail, hbody, hspace, -⟩ := head_value hderives
      rw [List.append_assoc, skipWhitespace_append hbefore, hbody]
      exact skipWhitespace_cons hspace _
    have hend : skipWhitespace after = [] := by
      rw [← List.append_nil after, skipWhitespace_append hafter]
      rfl
    have hread := parseValue_complete hderives hdistinct hwithin.1 after 0 hends
      (by rw [Nat.zero_add]; exact hwithin.2)
    exact ⟨(), hlen, _, by rw [hskip]; exact hread, (), hend, rfl⟩

end DrainFabric
