import Mathlib.Order.Lattice
import Mathlib.Data.List.Basic
import Mathlib.Data.List.Nodup
import Mathlib.Data.List.Perm.Basic
import Mathlib.Data.List.Sort
import DrainFabric.Lib.Except

/-!
# Sorted tables

A **table** is a finite collection of values kept strictly increasing in a key
that every value carries. It is the pure counterpart of an ordered map whose
entries know their own key: an entry cannot be filed under a foreign key and two
entries cannot share one, because the list carries the proof that it is sorted.

An ordered map from `K` to `V` is the table of pairs keyed by their first
component (`OrdMap`).

* `find?`, `put`, `emplace`, `erase`, `mapVals` — the operations;
* `find?_put`, `find?_erase`, `find?_mapVals` — how lookup sees each of them;
* `ext_find?` — two tables with the same lookups are equal;
* `foldlM_put`, `foldlM_emplace_eq_ok`, `foldlM_put_eq` — loops that file one value per
  element: reading a written table back, rewriting a table in place.
-/

namespace Lib

variable {K V : Type*} [LinearOrder K]

/-- A list of values, strictly increasing in `key`. -/
structure Table (key : V → K) where
  toList : List V
  sorted : toList.Pairwise (fun a b => key a < key b)

/-- Ordered map: the table of key/value pairs. -/
abbrev OrdMap (K V : Type*) [LinearOrder K] := Table (V := K × V) (Prod.fst : K × V → K)

/-- File `v` under its key, replacing the value that held the key before. -/
def putList (key : V → K) (v : V) : List V → List V
  | [] => [v]
  | w :: rest =>
    if key v < key w then v :: w :: rest
    else if key v = key w then v :: rest
    else w :: putList key v rest

theorem mem_putList {key : V → K} {v a : V} {l : List V} (h : a ∈ putList key v l) :
    a = v ∨ a ∈ l := by
  induction l with
  | nil => simpa [putList] using h
  | cons w rest ih =>
    rw [putList] at h
    split_ifs at h with hlt heq
    · simpa using h
    · rcases List.mem_cons.mp h with rfl | h
      · exact Or.inl rfl
      · exact Or.inr (List.mem_cons_of_mem _ h)
    · rcases List.mem_cons.mp h with rfl | h
      · exact Or.inr List.mem_cons_self
      · exact (ih h).imp id (List.mem_cons_of_mem _)

theorem putList_sorted {key : V → K} (v : V) {l : List V}
    (h : l.Pairwise (fun a b => key a < key b)) :
    (putList key v l).Pairwise (fun a b => key a < key b) := by
  induction l with
  | nil => simp [putList]
  | cons w rest ih =>
    have hrest := List.pairwise_cons.mp h
    rw [putList]
    split_ifs with hlt heq
    · refine List.pairwise_cons.mpr ⟨fun a ha => ?_, h⟩
      rcases List.mem_cons.mp ha with rfl | ha
      · exact hlt
      · exact hlt.trans (hrest.1 a ha)
    · exact List.pairwise_cons.mpr ⟨fun a ha => heq ▸ hrest.1 a ha, hrest.2⟩
    · refine List.pairwise_cons.mpr ⟨fun a ha => ?_, ih hrest.2⟩
      rcases mem_putList ha with rfl | ha
      · exact lt_of_le_of_ne (not_lt.mp hlt) (Ne.symm heq)
      · exact hrest.1 a ha

namespace Table

variable {key : V → K}

/-- The table without entries. -/
def empty (key : V → K) : Table key := ⟨[], List.Pairwise.nil⟩

instance : Inhabited (Table key) := ⟨empty key⟩

/-- The value filed under `k`. -/
def find? (t : Table key) (k : K) : Option V :=
  t.toList.find? (fun v => decide (key v = k))

/-- The number of entries. -/
def size (t : Table key) : Nat := t.toList.length

/-- The keys in increasing order. -/
def keys (t : Table key) : List K := t.toList.map key

/-- Insert or overwrite. -/
def put (t : Table key) (v : V) : Table key :=
  ⟨putList key v t.toList, putList_sorted v t.sorted⟩

/-- Insert unless the key is taken. -/
def emplace (t : Table key) (v : V) : Option (Table key) :=
  if (t.find? (key v)).isSome then none else some (t.put v)

/-- Remove the entry filed under `k`. -/
def erase (t : Table key) (k : K) : Table key :=
  ⟨t.toList.filter (fun v => decide (key v ≠ k)), t.sorted.filter _⟩

/-- Rewrite every value in place; the rewriting must keep the key. -/
def mapVals (t : Table key) (f : V → V) (hf : ∀ v, key (f v) = key v) : Table key :=
  ⟨t.toList.map f, by
    rw [List.pairwise_map]
    exact t.sorted.imp (fun {a b} h => by rw [hf a, hf b]; exact h)⟩

@[simp] theorem toList_empty : (empty key).toList = [] := rfl

@[simp] theorem find?_empty (k : K) : (empty key).find? k = none := rfl

/-! ### Lookup and membership -/

theorem key_of_find? {t : Table key} {k : K} {v : V} (h : t.find? k = some v) : key v = k := by
  simpa using List.find?_some h

theorem mem_of_find? {t : Table key} {k : K} {v : V} (h : t.find? k = some v) : v ∈ t.toList :=
  List.mem_of_find?_eq_some h

/-- In a strictly sorted list an element is the first one with its key. -/
theorem find?_of_sorted {l : List V} (hs : l.Pairwise (fun a b => key a < key b)) {v : V}
    (hv : v ∈ l) : l.find? (fun w => decide (key w = key v)) = some v := by
  induction l with
  | nil => simp at hv
  | cons w rest ih =>
    have hrest := List.pairwise_cons.mp hs
    rcases List.mem_cons.mp hv with rfl | hv
    · simp
    · have hne : key w ≠ key v := (hrest.1 v hv).ne
      rw [List.find?_cons_of_neg (by simpa using hne)]
      exact ih hrest.2 hv

theorem find?_of_mem {t : Table key} {v : V} (h : v ∈ t.toList) : t.find? (key v) = some v :=
  find?_of_sorted t.sorted h

theorem mem_iff_find? {t : Table key} {v : V} : v ∈ t.toList ↔ t.find? (key v) = some v :=
  ⟨find?_of_mem, mem_of_find?⟩

theorem nodup_keys (t : Table key) : t.keys.Nodup :=
  List.pairwise_map.mpr (t.sorted.imp (fun h => ne_of_lt h))

theorem nodup_keys_filter (t : Table key) (p : V → Bool) :
    ((t.toList.filter p).map key).Nodup :=
  (List.filter_sublist.map key).nodup t.nodup_keys

/-- Equal lookups force equal tables: both lists are sorted and have the same
members. -/
theorem ext_find? {t u : Table key} (h : ∀ k, t.find? k = u.find? k) : t = u := by
  have hmem : ∀ v, v ∈ t.toList ↔ v ∈ u.toList := by
    intro v
    rw [mem_iff_find?, mem_iff_find?, h]
  have hperm : t.toList.Perm u.toList := (List.perm_ext_iff_of_nodup
    (List.Nodup.of_map key t.nodup_keys) (List.Nodup.of_map key u.nodup_keys)).mpr hmem
  have hlist : t.toList = u.toList :=
    hperm.eq_of_pairwise (fun a b _ _ hab hba => absurd hab (not_lt.mpr hba.le)) t.sorted u.sorted
  cases t; cases u; cases hlist; rfl

theorem mem_keys_iff {t : Table key} {k : K} : k ∈ t.keys ↔ ∃ v, t.find? k = some v := by
  constructor
  · intro hk
    obtain ⟨v, hv, rfl⟩ := List.mem_map.mp hk
    exact ⟨v, find?_of_mem hv⟩
  · rintro ⟨v, hv⟩
    exact List.mem_map.mpr ⟨v, mem_of_find? hv, key_of_find? hv⟩

/-- A key stands once among the keys. -/
theorem notMem_of_keys_split {t : Table key} {k : K} {pre post : List K}
    (h : t.keys = pre ++ k :: post) : k ∉ pre ++ post := by
  have hnodup := t.nodup_keys
  rw [h, List.nodup_middle, List.nodup_cons] at hnodup
  exact hnodup.1

theorem mem_keys_filter {t : Table key} {p : V → Bool} {k : K} :
    k ∈ (t.toList.filter p).map key ↔ (t.find? k).any p = true := by
  rw [List.mem_map]
  constructor
  · rintro ⟨v, hv, rfl⟩
    obtain ⟨hmem, hp⟩ := List.mem_filter.mp hv
    rw [find?_of_mem hmem]
    exact hp
  · intro h
    cases hv : t.find? k with
    | none => simp [hv] at h
    | some v =>
      rw [hv] at h
      exact ⟨v, List.mem_filter.mpr ⟨mem_of_find? hv, h⟩, key_of_find? hv⟩

/-- The keys of the values a table selects depend only on which lookups are selected. -/
theorem keys_filter_congr {t u : Table key} {p q : V → Bool}
    (h : ∀ k, (t.find? k).any p = (u.find? k).any q) :
    (t.toList.filter p).map key = (u.toList.filter q).map key := by
  have hsorted : ∀ (w : Table key) (p : V → Bool),
      ((w.toList.filter p).map key).Pairwise (· < ·) :=
    fun w p => List.pairwise_map.mpr (w.sorted.filter p)
  refine (hsorted t p).eq_of_mem_iff (hsorted u q) (fun k => ?_)
  rw [mem_keys_filter, mem_keys_filter, h]

/-! ### How lookup sees the updates -/

theorem find?_putList (v : V) (k : K) (l : List V) :
    (putList key v l).find? (fun w => decide (key w = k)) =
      if key v = k then some v else l.find? (fun w => decide (key w = k)) := by
  induction l with
  | nil => by_cases h : key v = k <;> simp [putList, h]
  | cons w rest ih =>
    rw [putList]
    by_cases hlt : key v < key w
    · rw [if_pos hlt]
      by_cases hk : key v = k <;> simp [hk]
    · rw [if_neg hlt]
      by_cases heq : key v = key w
      · rw [if_pos heq]
        by_cases hk : key v = k
        · simp [hk]
        · have hw : key w ≠ k := heq ▸ hk
          simp [hk, hw]
      · rw [if_neg heq]
        by_cases hw : key w = k
        · have hk : key v ≠ k := fun hk => heq (hk.trans hw.symm)
          simp [hw, hk]
        · rw [List.find?_cons_of_neg (by simpa using hw), ih,
            List.find?_cons_of_neg (by simpa using hw)]

theorem find?_put (t : Table key) (v : V) (k : K) :
    (t.put v).find? k = if key v = k then some v else t.find? k :=
  find?_putList v k t.toList

@[simp] theorem find?_put_self (t : Table key) (v : V) : (t.put v).find? (key v) = some v := by
  rw [find?_put, if_pos rfl]

theorem find?_put_of_eq {t : Table key} {v : V} {k : K} (h : key v = k) :
    (t.put v).find? k = some v := by
  rw [find?_put, if_pos h]

theorem find?_put_of_ne {t : Table key} {v : V} {k : K} (h : key v ≠ k) :
    (t.put v).find? k = t.find? k := by
  rw [find?_put, if_neg h]

/-- Overwriting an entry by itself. -/
theorem put_self {t : Table key} {v : V} (h : t.find? (key v) = some v) : t.put v = t := by
  refine ext_find? (fun k => ?_)
  rw [find?_put]
  split_ifs with hk
  · rw [← hk, h]
  · rfl

/-- Of two writes to one key the second one stands. -/
theorem put_put {t : Table key} {v w : V} (h : key v = key w) : (t.put v).put w = t.put w := by
  refine ext_find? (fun k => ?_)
  rw [find?_put, find?_put, find?_put, h]
  split_ifs <;> rfl

theorem emplace_eq_some {t t' : Table key} {v : V} (h : t.emplace v = some t') :
    t.find? (key v) = none ∧ t' = t.put v := by
  unfold emplace at h
  split_ifs at h with hv
  exact ⟨by simpa using hv, (Option.some.inj h).symm⟩

theorem emplace_of_none {t : Table key} {v : V} (h : t.find? (key v) = none) :
    t.emplace v = some (t.put v) := by
  simp [emplace, h]

/-- An insertion: what was there before stays. -/
theorem emplace_eq_some_iff {t t' : Table key} {v : V} :
    t.emplace v = some t' ↔ t.find? (key v) = none ∧ t' = t.put v := by
  constructor
  · exact emplace_eq_some
  · rintro ⟨hfree, heq⟩
    rw [heq]
    exact emplace_of_none hfree

theorem find?_emplace (t : Table key) (v : V) (k : K) :
    ((t.emplace v).getD t).find? k = (t.find? k).or (if key v = k then some v else none) := by
  unfold emplace
  split_ifs with htaken hk hk
  · rw [← hk]
    obtain ⟨w, hw⟩ := Option.isSome_iff_exists.mp htaken
    rw [Option.getD_none, hw, Option.some_or]
  · rw [Option.getD_none, Option.or_none]
  · have hfree : t.find? k = none := by
      rw [← hk]
      simpa using htaken
    rw [Option.getD_some, find?_put, if_pos hk, hfree, Option.none_or]
  · rw [Option.getD_some, find?_put, if_neg hk, Option.or_none]

/-- Insertions one after the other: of several values with one key the first gets in. -/
theorem find?_foldl_emplace (l : List V) (t : Table key) (k : K) :
    (l.foldl (fun t v => (t.emplace v).getD t) t).find? k =
      (t.find? k).or (l.find? (fun v => decide (key v = k))) := by
  induction l generalizing t with
  | nil => simp
  | cons v rest ih =>
    rw [List.foldl_cons, ih, find?_emplace, Option.or_assoc, List.find?_cons]
    by_cases hk : key v = k <;> simp [hk]

theorem find?_erase (t : Table key) (k k' : K) :
    (t.erase k).find? k' = if k' = k then none else t.find? k' := by
  obtain ⟨l, hs⟩ := t
  simp only [erase, find?]
  induction l with
  | nil => simp
  | cons w rest ih =>
    have hih := ih (List.pairwise_cons.mp hs).2
    by_cases hw : key w = k
    · rw [List.filter_cons_of_neg (by simpa using hw), hih]
      by_cases hk : k' = k
      · simp [hk]
      · have hne : key w ≠ k' := fun h => hk (h.symm.trans hw)
        rw [if_neg hk, if_neg hk, List.find?_cons_of_neg (by simpa using hne)]
    · rw [List.filter_cons_of_pos (by simpa using hw)]
      by_cases hk' : key w = k'
      · have hne : k' ≠ k := fun h => hw (hk'.trans h)
        simp [hk', hne]
      · rw [List.find?_cons_of_neg (by simpa using hk'), hih,
          List.find?_cons_of_neg (by simpa using hk')]

theorem find?_mapVals (t : Table key) (f : V → V) (hf : ∀ v, key (f v) = key v) (k : K) :
    (t.mapVals f hf).find? k = (t.find? k).map f := by
  obtain ⟨l, hs⟩ := t
  simp only [mapVals, find?]
  induction l with
  | nil => rfl
  | cons w rest ih =>
    rw [List.map_cons]
    by_cases hw : key w = k
    · rw [List.find?_cons_of_pos (by simpa [hf] using hw),
        List.find?_cons_of_pos (by simpa using hw)]
      rfl
    · rw [List.find?_cons_of_neg (by simpa [hf] using hw),
        List.find?_cons_of_neg (by simpa using hw)]
      exact ih (List.pairwise_cons.mp hs).2

/-- Overwriting an entry that is present keeps the key list. -/
theorem keys_put_of_mem {t : Table key} {v : V} (h : (t.find? (key v)).isSome) :
    (t.put v).keys = t.keys := by
  obtain ⟨l, hs⟩ := t
  simp only [keys, put]
  simp only [find?] at h
  induction l with
  | nil => simp at h
  | cons w rest ih =>
    have hrest := List.pairwise_cons.mp hs
    rw [putList]
    split_ifs with hlt heq
    · -- an entry below the head would be below every key of the list
      obtain ⟨a, ha⟩ := Option.isSome_iff_exists.mp h
      have hka : key a = key v := by simpa using List.find?_some ha
      rcases List.mem_cons.mp (List.mem_of_find?_eq_some ha) with rfl | hmem
      · exact absurd hka hlt.ne'
      · exact absurd hka (hlt.trans (hrest.1 a hmem)).ne'
    · simp [heq]
    · rw [List.map_cons, List.map_cons, ih hrest.2]
      rwa [List.find?_cons_of_neg (by simpa using Ne.symm heq)] at h

theorem size_put_of_mem {t : Table key} {v : V} (h : (t.find? (key v)).isSome) :
    (t.put v).size = t.size := by
  have hlength := congrArg List.length (keys_put_of_mem h)
  rwa [keys, keys, List.length_map, List.length_map] at hlength

/-- Writing an entry does not matter once it is erased. -/
theorem erase_put (t : Table key) (v : V) : (t.put v).erase (key v) = t.erase (key v) := by
  refine ext_find? (fun k => ?_)
  rw [find?_erase, find?_erase, find?_put]
  split_ifs with hk hv
  · rfl
  · exact absurd hv.symm hk
  · rfl

theorem erase_of_none {t : Table key} {k : K} (h : t.find? k = none) : t.erase k = t := by
  refine ext_find? (fun k' => ?_)
  rw [find?_erase]
  split_ifs with hk
  · rw [hk, h]
  · rfl

theorem size_erase_of_mem {t : Table key} {v : V} (h : v ∈ t.toList) :
    (t.erase (key v)).size < t.size :=
  List.length_filter_lt_length_iff_exists.mpr ⟨v, h, by simp⟩

theorem length_putList_le (v : V) (l : List V) : (putList key v l).length ≤ l.length + 1 := by
  induction l with
  | nil => exact le_rfl
  | cons a rest ih =>
    unfold putList
    split_ifs <;> simp only [List.length_cons] <;> omega

theorem size_put_le (t : Table key) (v : V) : (t.put v).size ≤ t.size + 1 :=
  length_putList_le v t.toList

theorem forall_put {t : Table key} {v : V} {P : V → Prop} (h : ∀ w ∈ t.toList, P w) (hv : P v) :
    ∀ w ∈ (t.put v).toList, P w := by
  intro w hw
  rcases mem_putList hw with rfl | hold
  · exact hv
  · exact h w hold

theorem length_putList_of_new {v : V} {l : List V} (h : ∀ w ∈ l, key w ≠ key v) :
    (putList key v l).length = l.length + 1 := by
  induction l with
  | nil => rfl
  | cons a rest ih =>
    have hrest := ih (fun w hw => h w (List.mem_cons_of_mem a hw))
    have hne := h a List.mem_cons_self
    unfold putList
    split_ifs with hlt heq
    · rfl
    · exact absurd heq.symm hne
    · rw [List.length_cons, hrest, List.length_cons]

/-- A new entry adds one. -/
theorem size_emplace_of_new {t : Table key} {v : V} (h : t.find? (key v) = none) :
    ((t.emplace v).getD t).size = t.size + 1 := by
  have hnew : ∀ w ∈ t.toList, key w ≠ key v := by
    intro w hw heq
    rw [← heq, find?_of_mem hw] at h
    cases h
  have hput : t.emplace v = some (t.put v) := by
    rw [emplace, h]
    rfl
  rw [hput, Option.getD_some]
  exact length_putList_of_new hnew

/-- Each insertion adds at most one entry. -/
theorem size_foldl_emplace_le (l : List V) (t : Table key) :
    (l.foldl (fun t v => (t.emplace v).getD t) t).size ≤ t.size + l.length := by
  induction l generalizing t with
  | nil => exact le_rfl
  | cons v rest ih =>
    have hstep : ((t.emplace v).getD t).size ≤ t.size + 1 := by
      cases hput : t.emplace v with
      | none => exact Nat.le_succ _
      | some t' =>
        rw [Option.getD_some, (emplace_eq_some hput).2]
        exact length_putList_le v t.toList
    rw [List.foldl_cons, List.length_cons]
    have hrest := ih ((t.emplace v).getD t)
    omega

theorem keys_mapVals (t : Table key) (f : V → V) (hf : ∀ v, key (f v) = key v) :
    (t.mapVals f hf).keys = t.keys := by
  show (t.toList.map f).map key = t.toList.map key
  rw [List.map_map]
  exact List.map_congr_left (fun v _ => hf v)

theorem size_mapVals (t : Table key) (f : V → V) (hf : ∀ v, key (f v) = key v) :
    (t.mapVals f hf).size = t.size :=
  List.length_map f

/-! ### Reading a table back -/

/-- The elements still to be filed come behind the entries of the table. -/
structure Awaits (t : Table key) (l : List V) : Prop where
  sorted : l.Pairwise (fun a b => key a < key b)
  behind : ∀ v ∈ l, ∀ w ∈ t.toList, key w < key v

theorem awaits_empty (t : Table key) : (empty key).Awaits t.toList :=
  ⟨t.sorted, fun _ _ _ h => by cases h⟩

theorem Awaits.free {t : Table key} {v : V} {rest : List V} (h : t.Awaits (v :: rest)) :
    t.find? (key v) = none := by
  cases hfind : t.find? (key v) with
  | none => rfl
  | some w =>
    have hlt := h.behind v List.mem_cons_self w (mem_of_find? hfind)
    rw [key_of_find? hfind] at hlt
    exact absurd hlt (lt_irrefl _)

theorem Awaits.put {t : Table key} {v w : V} {rest : List V} (h : t.Awaits (v :: rest))
    (hkey : key w = key v) : (t.put w).Awaits rest := by
  obtain ⟨hfirst, hrest⟩ := List.pairwise_cons.mp h.sorted
  refine ⟨hrest, fun a ha b hb => ?_⟩
  rcases mem_putList hb with rfl | hold
  · rw [hkey]
    exact hfirst a ha
  · exact h.behind a (List.mem_cons_of_mem _ ha) b hold

theorem Awaits.size_put {t : Table key} {v w : V} {rest : List V} (h : t.Awaits (v :: rest))
    (hkey : key w = key v) : (t.put w).size = t.size + 1 := by
  refine length_putList_of_new (fun u hu => ?_)
  rw [hkey]
  exact (h.behind v List.mem_cons_self u hu).ne

theorem find?_foldl_put {norm : V → V} (hnorm : ∀ v, key (norm v) = key v) {l : List V}
    (hsorted : l.Pairwise (fun a b => key a < key b)) (t : Table key) (k : K) :
    (l.foldl (fun s v => s.put (norm v)) t).find? k =
      ((l.find? (fun v => decide (key v = k))).map norm).or (t.find? k) := by
  induction l generalizing t with
  | nil => rfl
  | cons v rest ih =>
    obtain ⟨hfirst, hrest⟩ := List.pairwise_cons.mp hsorted
    rw [List.foldl_cons, ih hrest, find?_put, hnorm]
    by_cases hk : key v = k
    · -- No later element has the key of the first.
      have hnone : rest.find? (fun w => decide (key w = k)) = none :=
        List.find?_eq_none.mpr (fun w hw => by
          rw [decide_eq_true_iff, ← hk]
          exact (hfirst w hw).ne')
      rw [if_pos hk, hnone, List.find?_cons_of_pos (by simpa using hk)]
      rfl
    · rw [if_neg hk, List.find?_cons_of_neg (by simpa using hk)]

/-- Filing the elements of a table in order rebuilds it. -/
theorem foldl_put (t : Table key) {norm : V → V} (hnorm : ∀ v, key (norm v) = key v) :
    t.toList.foldl (fun s v => s.put (norm v)) (empty key) = t.mapVals norm hnorm := by
  refine ext_find? (fun k => ?_)
  rw [find?_foldl_put hnorm t.sorted, find?_empty, Option.or_none, find?_mapVals]
  rfl

/-- Reading back a table that was written element by element rebuilds it, up to
what writing does to a value. `proj` is the table part of the state of the loop. -/
theorem foldlM_put {ε S J : Type*} {t : Table key} {enc : V → J} {norm : V → V}
    (proj : S → Table key) (hnorm : ∀ v, key (norm v) = key v) {step : S → J → Except ε S}
    (hstep : ∀ s v s', step s (enc v) = .ok s' → proj s' = (proj s).put (norm v))
    {s s' : S} (hs : proj s = empty key) (h : (t.toList.map enc).foldlM step s = .ok s') :
    proj s' = t.mapVals norm hnorm := by
  rw [← foldl_put t hnorm, ← hs]
  clear hs
  generalize t.toList = l at h ⊢
  induction l generalizing s with
  | nil =>
    obtain rfl := pure_eq_ok.mp h
    rfl
  | cons v rest ih =>
    rw [List.map_cons, List.foldlM_cons, bind_eq_ok] at h
    obtain ⟨mid, hmid, h⟩ := h
    rw [ih h, hstep s v mid hmid, List.foldl_cons]

theorem mapVals_id (t : Table key) : t.mapVals (fun v => v) (fun _ => rfl) = t :=
  ext_find? (fun k => by rw [find?_mapVals, Option.map_id'])

theorem mapVals_eq_self {t : Table key} {f : V → V} (hf : ∀ v, key (f v) = key v)
    (h : ∀ v ∈ t.toList, f v = v) : t.mapVals f hf = t := by
  refine ext_find? (fun k => ?_)
  rw [find?_mapVals]
  cases hfind : t.find? k with
  | none => rfl
  | some v => exact congrArg some (h v (mem_of_find? hfind))

/-- Reading a table back with insertions succeeds exactly when every entry can be
read: no two entries of a table share a key. -/
theorem foldlM_emplace_eq_ok {ε J : Type*} {t t' : Table key} {enc : V → J} {norm : V → V}
    (hnorm : ∀ v, key (norm v) = key v) {R : V → Prop}
    {step : Table key → J → Except ε (Table key)}
    (hstep : ∀ s v s', step s (enc v) = .ok s' ↔ R v ∧ s.emplace (norm v) = some s') :
    (t.toList.map enc).foldlM step (empty key) = .ok t' ↔
      (∀ v ∈ t.toList, R v) ∧ t' = t.mapVals norm hnorm := by
  rw [foldlM_map_eq_ok (g := fun s v => s.put (norm v)) (R := R) (I := Awaits) ?_
    (fun s v rest h => h.put (hnorm v)) (awaits_empty t), foldl_put t hnorm]
  intro s v rest s' h
  have hfree : s.find? (key (norm v)) = none := by rw [hnorm]; exact h.free
  rw [hstep, emplace_of_none hfree, Option.some.injEq, eq_comm]

/-- Reading back a table that is one field of the state of a loop. -/
theorem foldlM_field_eq_ok {ε S J : Type*} {t : Table key} {enc : V → J} {R : V → Prop}
    {bound : Nat} (field : S → Table key) (update : S → Table key → S)
    (hfield : ∀ s u, field (update s u) = u) (hself : ∀ s, update s (field s) = s)
    (hupdate : ∀ s u v, update (update s u) v = update s v) {step : S → J → Except ε S}
    (hstep : ∀ s v s', step s (enc v) = .ok s' ↔
      R v ∧ (field s).size < bound ∧ (field s).find? (key v) = none ∧
        s' = update s ((field s).put v))
    (hbound : t.size ≤ bound) {s s' : S} (hs : field s = empty key) :
    (t.toList.map enc).foldlM step s = .ok s' ↔ (∀ v ∈ t.toList, R v) ∧ s' = update s t := by
  have hloop := foldl_field field update hfield hself hupdate (fun (u : Table key) v => u.put v)
  rw [foldlM_map_eq_ok (g := fun s v => update s ((field s).put v)) (R := R)
    (I := fun s rest => (field s).Awaits rest ∧ (field s).size + rest.length ≤ bound)
    ?_ ?_ ?_, hloop, hs, foldl_put t (fun _ => rfl), mapVals_id]
  · rintro s v rest s' ⟨hawaits, hroom⟩
    rw [List.length_cons] at hroom
    rw [hstep]
    exact ⟨fun h => ⟨h.1, h.2.2.2⟩, fun h => ⟨h.1, by omega, hawaits.free, h.2⟩⟩
  · rintro s v rest ⟨hawaits, hroom⟩
    rw [List.length_cons] at hroom
    refine ⟨?_, ?_⟩
    · rw [hfield]
      exact hawaits.put rfl
    · rw [hfield, hawaits.size_put rfl]
      omega
  · rw [hs]
    exact ⟨awaits_empty t, by rw [size, toList_empty, List.length_nil, Nat.zero_add]; exact hbound⟩

/-- Rewriting a table in place by a function. -/
theorem foldlM_put_eq {ε : Type*} {t : Table key} {f : V → V} (hf : ∀ v, key (f v) = key v)
    {step : Table key → V → Except ε (Table key)}
    (hstep : ∀ s v, v ∈ t.toList → step s v = .ok (s.put (f v))) :
    t.toList.foldlM step t = .ok (t.mapVals f hf) := by
  have hloop : ∀ (l : List V) (s : Table key), (∀ v ∈ l, v ∈ t.toList) →
      l.foldlM step s = .ok (l.foldl (fun s v => s.put (f v)) s) := by
    intro l
    induction l with
    | nil => exact fun _ _ => rfl
    | cons v rest ih =>
      intro s hall
      obtain ⟨hv, hrest⟩ := List.forall_mem_cons.mp hall
      rw [List.foldlM_cons, hstep s v hv]
      exact ih _ hrest
  rw [hloop _ t (fun _ hv => hv)]
  refine congrArg _ (ext_find? (fun k => ?_))
  rw [find?_foldl_put hf t.sorted, find?_mapVals]
  show ((t.find? k).map f).or (t.find? k) = _
  cases t.find? k <;> rfl

end Table

namespace OrdMap

variable {W : Type*}

/-- The value stored under `k`. -/
def get? (m : OrdMap K W) (k : K) : Option W := (m.find? k).map Prod.snd

/-- Insert or overwrite the value stored under `k`. -/
def set (m : OrdMap K W) (k : K) (w : W) : OrdMap K W := m.put (k, w)

@[simp] theorem get?_empty (k : K) : get? (Table.empty (Prod.fst : K × W → K)) k = none := rfl

theorem get?_set (m : OrdMap K W) (k k' : K) (w : W) :
    get? (set m k w) k' = if k = k' then some w else get? m k' := by
  unfold get? set
  rw [Table.find?_put]
  split_ifs <;> rfl

@[simp] theorem get?_set_self (m : OrdMap K W) (k : K) (w : W) : get? (set m k w) k = some w := by
  rw [get?_set, if_pos rfl]

theorem get?_set_of_ne {m : OrdMap K W} {k k' : K} {w : W} (h : k ≠ k') :
    get? (set m k w) k' = get? m k' := by
  rw [get?_set, if_neg h]

theorem get?_erase (m : OrdMap K W) (k k' : K) :
    get? (Table.erase m k) k' = if k' = k then none else get? m k' := by
  unfold get?
  rw [Table.find?_erase]
  split_ifs <;> rfl

theorem get?_eq_some_iff {m : OrdMap K W} {k : K} {w : W} :
    get? m k = some w ↔ (k, w) ∈ m.toList := by
  rw [Table.mem_iff_find?]
  unfold get?
  constructor
  · intro h
    obtain ⟨⟨k', w'⟩, hf, rfl⟩ := Option.map_eq_some_iff.mp h
    have hk : k' = k := Table.key_of_find? hf
    subst hk
    exact hf
  · intro h
    rw [h]
    rfl

/-- Two ordered maps with the same lookups are equal. -/
theorem ext_get? {m m' : OrdMap K W} (h : ∀ k, get? m k = get? m' k) : m = m' := by
  refine Table.ext_find? (fun k => ?_)
  have hpair : ∀ (n : OrdMap K W), Table.find? n k = (get? n k).map (fun w => (k, w)) := by
    intro n
    unfold get?
    cases hk : Table.find? n k with
    | none => rfl
    | some p =>
      have hp : p.1 = k := Table.key_of_find? hk
      rw [← hp]
      rfl
  rw [hpair, hpair, h]

theorem get?_foldl_set {l : List (K × W)} (hl : l.Pairwise (fun a b => a.1 < b.1))
    (m : OrdMap K W) (k : K) :
    get? (l.foldl (fun m p => set m p.1 p.2) m) k =
      ((l.find? (fun p => decide (p.1 = k))).map Prod.snd).or (get? m k) := by
  induction l generalizing m with
  | nil => rfl
  | cons p rest ih =>
    obtain ⟨hlt, hrest⟩ := List.pairwise_cons.mp hl
    rw [List.foldl_cons, ih hrest, List.find?_cons, get?_set]
    by_cases hk : p.1 = k
    · have hnone : rest.find? (fun q => decide (q.1 = k)) = none := by
        refine List.find?_eq_none.mpr (fun q hq => ?_)
        rw [decide_eq_true_iff, ← hk]
        exact (hlt q hq).ne'
      simp [hk, hnone]
    · simp [hk]

/-- Filing the entries of a map one after the other gives the map. -/
theorem foldl_set_toList (m : OrdMap K W) :
    m.toList.foldl (fun acc p => set acc p.1 p.2) (Table.empty Prod.fst) = m := by
  refine ext_get? (fun k => ?_)
  rw [get?_foldl_set m.sorted, get?_empty, Option.or_none]
  rfl

end OrdMap

end Lib
