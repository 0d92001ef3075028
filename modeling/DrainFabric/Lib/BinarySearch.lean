import Mathlib.Order.Defs.Unbundled
import Mathlib.Order.RelClasses
import Mathlib.Data.List.Sort
import Mathlib.Data.List.Destutter

/-!
# Sorting, removing repetitions and binary search

The three list algorithms of a standard library that are used together to keep a
duplicate-free sorted vector: sort by a strict order, drop equal neighbours, and
look a value up by bisection.

* `sortUnique` — sort, then drop equal neighbours;
* `lowerBound`, `binarySearch` — bisection, on positions, as an iterative loop;
* `binarySearch_iff_mem` — on a strictly sorted list bisection decides membership.

The order is a Boolean comparison `less` that is a strict total order.
-/

namespace Lib

variable {α : Type*} (less : α → α → Bool)

/-- The comparison as a relation. -/
def Less (a b : α) : Prop := less a b = true

instance : DecidableRel (Less less) := fun a b => inferInstanceAs (Decidable (less a b = true))

/-- The loop of `lower_bound`: `first` is the start of the range that is still
searched and `count` its length. The fuel is the length of the list; every
iteration at least halves the range. -/
def lowerBoundLoop (value : α) (l : List α) : Nat → Nat → Nat → Nat
  | 0, first, _ => first
  | fuel + 1, first, count =>
    if count = 0 then first
    else
      match l[first + count / 2]? with
      | none => first
      | some a =>
        if less a value then lowerBoundLoop value l fuel (first + count / 2 + 1) (count - (count / 2 + 1))
        else lowerBoundLoop value l fuel first (count / 2)

/-- The first position whose element is not before `value`. -/
def lowerBound (value : α) (l : List α) : Nat :=
  lowerBoundLoop less value l l.length 0 l.length

/-- Does `value` occur in the sorted list? -/
def binarySearch (value : α) (l : List α) : Bool :=
  match l[lowerBound less value l]? with
  | none => false
  | some a => !less value a

/-- Sort, then drop every element equal to its predecessor. -/
def sortUnique [DecidableEq α] (l : List α) : List α :=
  (l.insertionSort (fun a b => ¬ Less less b a)).destutter (· ≠ ·)

section StrictTotalOrder

variable {less}

/-- Positions of a strictly sorted list are ordered like their elements. -/
theorem less_of_lt {l : List α} (hs : l.Pairwise (Less less)) {i j : Nat} {a b : α}
    (hi : l[i]? = some a) (hj : l[j]? = some b) (hij : i < j) : Less less a b := by
  obtain ⟨hil, rfl⟩ := List.getElem?_eq_some_iff.mp hi
  obtain ⟨hjl, rfl⟩ := List.getElem?_eq_some_iff.mp hj
  exact List.pairwise_iff_getElem.mp hs i j hil hjl hij

variable [IsStrictTotalOrder α (Less less)]

theorem not_less_self (a : α) : ¬ Less less a a := irrefl_of (Less less) a

theorem less_trans {a b c : α} (hab : Less less a b) (hbc : Less less b c) : Less less a c :=
  trans_of (Less less) hab hbc

theorem eq_of_not_less {a b : α} (hab : ¬ Less less a b) (hba : ¬ Less less b a) : a = b := by
  rcases trichotomous_of (Less less) a b with h | h | h
  · exact absurd h hab
  · exact h
  · exact absurd h hba

/-- What the loop keeps: everything left of `first` is before `value`, and
nothing from `first + count` on is. The answer is then a partition point. -/
theorem lowerBoundLoop_spec {value : α} {l : List α} (hs : l.Pairwise (Less less)) :
    ∀ (fuel first count : Nat), count ≤ fuel → first + count ≤ l.length →
      (∀ i a, i < first → l[i]? = some a → Less less a value) →
      (∀ i a, first + count ≤ i → l[i]? = some a → ¬ Less less a value) →
      (∀ i a, i < lowerBoundLoop less value l fuel first count → l[i]? = some a →
        Less less a value) ∧
      (∀ i a, lowerBoundLoop less value l fuel first count ≤ i → l[i]? = some a →
        ¬ Less less a value) := by
  intro fuel
  induction fuel with
  | zero =>
    intro first count hfuel _ hlo hhi
    obtain rfl : count = 0 := by omega
    exact ⟨hlo, hhi⟩
  | succ fuel ih =>
    intro first count hfuel hlen hlo hhi
    rw [lowerBoundLoop]
    by_cases hc : count = 0
    · subst hc
      rw [if_pos rfl]
      exact ⟨hlo, hhi⟩
    · rw [if_neg hc]
      have hmid : first + count / 2 < l.length := by omega
      obtain ⟨a, ha⟩ : ∃ a, l[first + count / 2]? = some a :=
        ⟨_, List.getElem?_eq_getElem hmid⟩
      rw [ha]
      by_cases hless : less a value = true
      · simp only [hless, if_true]
        refine ih _ _ (by omega) (by omega) ?_ ?_
        · intro i b hi hb
          rcases Nat.lt_or_ge i (first + count / 2) with h | h
          · exact less_trans (less_of_lt hs hb ha h) hless
          · obtain rfl : i = first + count / 2 := by omega
            rw [ha] at hb
            cases hb
            exact hless
        · intro i b hi hb
          exact hhi i b (by omega) hb
      · simp only [hless]
        refine ih _ _ (by omega) (by omega) hlo ?_
        intro i b hi hb hbv
        rcases Nat.eq_or_lt_of_le hi with h | h
        · rw [← h, ha] at hb
          cases hb
          exact hless hbv
        · exact hless (less_trans (less_of_lt hs ha hb h) hbv)

/-- Bisection on a strictly sorted list decides membership. -/
theorem binarySearch_iff_mem {value : α} {l : List α} (hs : l.Pairwise (Less less)) :
    binarySearch less value l = true ↔ value ∈ l := by
  obtain ⟨hlo, hhi⟩ := @lowerBoundLoop_spec _ less _ value l hs l.length 0 l.length le_rfl
    (by omega) (fun i a hi => absurd hi (by omega))
    (fun i a hi ha => by
      have := (List.getElem?_eq_some_iff.mp ha).1
      omega)
  rw [binarySearch, lowerBound]
  generalize lowerBoundLoop less value l l.length 0 l.length = p at hlo hhi ⊢
  constructor
  · intro h
    cases hp : l[p]? with
    | none => rw [hp] at h; cases h
    | some a =>
      rw [hp] at h
      have hav : ¬ Less less value a := by simpa [Less] using h
      obtain rfl := eq_of_not_less (hhi p a le_rfl hp) hav
      exact List.mem_of_getElem? hp
  · intro h
    obtain ⟨j, hj⟩ := List.mem_iff_getElem?.mp h
    have hpj : p = j := by
      rcases Nat.lt_trichotomy p j with h | h | h
      · have hlt : p < l.length := by
          have := (List.getElem?_eq_some_iff.mp hj).1
          omega
        have hp := List.getElem?_eq_getElem hlt
        exact absurd (less_of_lt hs hp hj h) (hhi p _ le_rfl hp)
      · exact h
      · exact absurd (hlo j value h hj) (not_less_self value)
    rw [hpj, hj]
    have hself : ¬ Less less value value := not_less_self value
    simpa [Less] using hself

/-! ### `sortUnique` -/

/-- "Not after" is transitive, total and antisymmetric, like every weak order of a
strict total one. -/
theorem notAfter_trans : IsTrans α (fun a b => ¬ Less less b a) :=
  ⟨fun a b c hab hbc hca => by
    rcases trichotomous_of (Less less) a b with h | h | h
    · exact hbc (less_trans hca h)
    · exact hbc (h ▸ hca)
    · exact hab h⟩

theorem notAfter_total : Std.Total (fun a b => ¬ Less less b a) :=
  ⟨fun a b => by
    by_cases h : Less less b a
    · exact Or.inr (fun h' => not_less_self a (less_trans h' h))
    · exact Or.inl h⟩

theorem notAfter_antisymm : Std.Antisymm (fun a b => ¬ Less less b a) :=
  ⟨fun _ _ h h' => eq_of_not_less h' h⟩

theorem insertionSort_sorted (l : List α) :
    (l.insertionSort (fun a b => ¬ Less less b a)).Pairwise (fun a b => ¬ Less less b a) :=
  have : IsTrans α (fun a b => ¬ Less less b a) := notAfter_trans
  have : Std.Total (fun a b => ¬ Less less b a) := notAfter_total
  List.pairwise_insertionSort (fun a b => ¬ Less less b a) l

theorem mem_sortUnique [DecidableEq α] {l : List α} {a : α} : a ∈ sortUnique less l ↔ a ∈ l := by
  have : Std.Antisymm (fun a b => ¬ Less less b a) := notAfter_antisymm
  rw [sortUnique, (insertionSort_sorted l).destutter_eq_dedup, List.mem_dedup,
    List.mem_insertionSort]

theorem sortUnique_sorted [DecidableEq α] (l : List α) :
    (sortUnique less l).Pairwise (Less less) := by
  have hsub : (sortUnique less l).Pairwise (fun a b => ¬ Less less b a) :=
    (insertionSort_sorted l).sublist (List.destutter_sublist _ _)
  have hchain : (sortUnique less l).IsChain (· ≠ ·) := List.isChain_destutter _ _
  have hstrict : (sortUnique less l).IsChain (Less less) := by
    refine List.isChain_iff_getElem.mpr (fun i hi => ?_)
    have hle := List.pairwise_iff_getElem.mp hsub i (i + 1) (by omega) hi (by omega)
    have hne := List.isChain_iff_getElem.mp hchain i hi
    rcases trichotomous_of (Less less) _ _ with h | h | h
    · exact h
    · exact absurd h hne
    · exact absurd h hle
  have : IsTrans α (Less less) := ⟨fun _ _ _ => less_trans⟩
  exact hstrict.pairwise

theorem sortUnique_nodup [DecidableEq α] (l : List α) : (sortUnique less l).Nodup := by
  refine (sortUnique_sorted l).imp ?_
  rintro a b hless rfl
  exact not_less_self a hless

/-- The result depends only on what the list contains. -/
theorem sortUnique_congr [DecidableEq α] {l l' : List α} (h : ∀ a, a ∈ l ↔ a ∈ l') :
    sortUnique less l = sortUnique less l' := by
  have hperm : (sortUnique less l).Perm (sortUnique less l') := by
    refine (List.perm_ext_iff_of_nodup (sortUnique_nodup l) (sortUnique_nodup l')).mpr (fun a => ?_)
    rw [mem_sortUnique, mem_sortUnique, h]
  exact hperm.eq_of_pairwise (fun a b _ _ hab hba => absurd (less_trans hab hba) (not_less_self a))
    (sortUnique_sorted l) (sortUnique_sorted l')

theorem length_sortUnique [DecidableEq α] (l : List α) :
    (sortUnique less l).length = l.dedup.length := by
  refine List.Perm.length_eq ?_
  refine (List.perm_ext_iff_of_nodup (sortUnique_nodup l) l.nodup_dedup).mpr (fun a => ?_)
  rw [mem_sortUnique, List.mem_dedup]

/-- A list that is already strictly sorted is left alone. -/
theorem sortUnique_of_sorted [DecidableEq α] {l : List α} (hs : l.Pairwise (Less less)) :
    sortUnique less l = l := by
  have hasym : l.Pairwise (fun a b => ¬ Less less b a) :=
    hs.imp (fun h h' => not_less_self _ (less_trans h h'))
  have hne : l.Pairwise (· ≠ ·) := by
    refine hs.imp ?_
    rintro a b h rfl
    exact not_less_self a h
  rw [sortUnique, hasym.insertionSort_eq, List.destutter_of_isChain _ _ hne.isChain]

end StrictTotalOrder

/-- The order of a linear order, as a comparison. -/
instance {α : Type*} [LinearOrder α] :
    IsStrictTotalOrder α (Less (fun a b : α => decide (a < b))) where
  trichotomous := fun a b h h' => le_antisymm (by simpa [Less] using h') (by simpa [Less] using h)
  irrefl := fun a h => lt_irrefl a (of_decide_eq_true h)
  trans := fun _ _ _ h h' => decide_eq_true ((of_decide_eq_true h).trans (of_decide_eq_true h'))

end Lib
