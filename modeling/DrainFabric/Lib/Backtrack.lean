import Mathlib.Data.List.Chain
import Mathlib.Data.List.Nodup

/-!
# Backtracking over simple paths

A backtracking search keeps the path it is on as a stack of frames, top first. A frame is a
place and the number of its successors that were already tried.

* `Stem` — a simple path that has not come to its goal, which is what a stack spells;
* `SimplePath` — a simple path that ends in its goal;
* `Pending` — the paths a stack still leads to: they follow it up to some frame and go on to
  a successor that this frame has not tried.

The search comes to every simple path because a pending path stays pending until the search
is on it: `Pending.back`, `Pending.advance` and `SimplePath.onward` say so for the moves of
a search.
-/

namespace Lib

variable {α : Type*}

/-- The path that a stack spells. -/
def spelled (frames : List (α × ℕ)) : List α := (frames.map Prod.fst).reverse

@[simp] theorem spelled_nil : spelled ([] : List (α × ℕ)) = [] := rfl

@[simp] theorem spelled_cons (frame : α × ℕ) (below : List (α × ℕ)) :
    spelled (frame :: below) = spelled below ++ [frame.1] := by
  rw [spelled, List.map_cons, List.reverse_cons, ← spelled]

@[simp] theorem length_spelled (frames : List (α × ℕ)) :
    (spelled frames).length = frames.length := by
  rw [spelled, List.length_reverse, List.length_map]

/-! ### Paths -/

section Paths

variable (next : α → List α) (ok : α → Prop) (bound : ℕ) (source goal : α)

/-- A simple path from the source that has not come to the goal. -/
structure Stem (path : List α) : Prop where
  start : ∀ x ∈ path.head?, x = source
  edges : path.IsChain (fun x y => y ∈ next x)
  nodup : path.Nodup
  ok : ∀ x ∈ path, ok x
  short : path.length ≤ bound
  before : goal ∉ path

/-- A simple path from the source to the goal. -/
structure SimplePath (path : List α) : Prop where
  start : path.head? = some source
  finish : path.getLast? = some goal
  edges : path.IsChain (fun x y => y ∈ next x)
  nodup : path.Nodup
  ok : ∀ x ∈ path, ok x
  short : path.length ≤ bound

variable {next ok bound source goal} {path : List α} {x y : α}

theorem Stem.of_prefix {path' : List α} (h : Stem next ok bound source goal path)
    (hsub : path' <+: path) : Stem next ok bound source goal path' where
  start := by
    obtain ⟨rest, rfl⟩ := hsub
    intro x hx
    exact h.start x (List.mem_head?_append_of_mem_head? hx)
  edges := h.edges.prefix hsub
  nodup := h.nodup.sublist hsub.sublist
  ok := fun x hx => h.ok x (hsub.subset hx)
  short := hsub.length_le.trans h.short
  before := fun hgoal => h.before (hsub.subset hgoal)

theorem Stem.start_of_concat (h : Stem next ok bound source goal (path ++ [x])) :
    (path ++ [x]).head? = some source := by
  cases path with
  | nil => exact congrArg some (h.start x rfl)
  | cons z rest => exact congrArg some (h.start z rfl)

theorem edges_concat (h : (path ++ [x]).IsChain (fun x y => y ∈ next x)) (hy : y ∈ next x) :
    (path ++ [x] ++ [y]).IsChain (fun x y => y ∈ next x) := by
  rw [List.append_assoc]
  exact List.isChain_append_cons_cons.mpr ⟨h, hy, .singleton y⟩

/-- The stem goes on to a successor. -/
theorem Stem.step (h : Stem next ok bound source goal (path ++ [x])) (hy : y ∈ next x)
    (hnew : y ∉ path ++ [x]) (hok : ok y) (hroom : (path ++ [x]).length < bound)
    (hgoal : y ≠ goal) : Stem next ok bound source goal (path ++ [x] ++ [y]) where
  start := by
    intro z hz
    rw [List.head?_append, h.start_of_concat] at hz
    exact (Option.some.inj hz).symm
  edges := edges_concat h.edges hy
  nodup := by
    rw [← List.concat_eq_append]
    exact List.Nodup.concat hnew h.nodup
  ok := List.forall_mem_append.mpr ⟨h.ok, List.forall_mem_singleton.mpr hok⟩
  short := by
    rw [List.length_append]
    exact hroom
  before := by
    intro hmem
    rcases List.mem_append.mp hmem with hold | hlast
    · exact h.before hold
    · exact hgoal (List.mem_singleton.mp hlast).symm

/-- The stem arrives. -/
theorem Stem.arrive (h : Stem next ok bound source goal (path ++ [x])) (hy : goal ∈ next x)
    (hok : ok goal) (hroom : (path ++ [x]).length < bound) :
    SimplePath next ok bound source goal (path ++ [x] ++ [goal]) where
  start := by rw [List.head?_append, h.start_of_concat, Option.some_or]
  finish := List.getLast?_concat
  edges := edges_concat h.edges hy
  nodup := by
    rw [← List.concat_eq_append]
    exact List.Nodup.concat h.before h.nodup
  ok := List.forall_mem_append.mpr ⟨h.ok, List.forall_mem_singleton.mpr hok⟩
  short := by
    rw [List.length_append]
    exact hroom

/-- A simple path at one of its places: it has not been there before, and it ends there or
goes on to a successor. -/
theorem SimplePath.onward (h : SimplePath next ok bound source goal path) {stem : List α}
    (hsub : stem ++ [y] <+: path) :
    y ∉ stem ∧ ok y ∧ stem.length < bound ∧ (y = goal → path = stem ++ [goal]) ∧
      (y ≠ goal → ∃ z ∈ next y, stem ++ [y] ++ [z] <+: path) := by
  obtain ⟨rest, rfl⟩ := hsub
  have hnodup : (stem ++ [y]).Nodup := h.nodup.sublist (List.sublist_append_left _ _)
  have hlength : (stem ++ [y]).length ≤ bound :=
    (List.prefix_append _ _).length_le.trans h.short
  have hmem : y ∈ stem ++ [y] := List.mem_append_right _ (List.mem_singleton_self y)
  refine ⟨?_, h.ok y (List.mem_append_left _ hmem), ?_, ?_, ?_⟩
  · intro hbefore
    exact (List.nodup_append.mp hnodup).2.2 y hbefore y (List.mem_singleton_self y) rfl
  · rw [List.length_append] at hlength
    exact hlength
  · intro hgoal
    -- The goal is the last place and occurs once, so nothing comes after it.
    cases rest with
    | nil => rw [List.append_nil, hgoal]
    | cons z rest =>
      have hlast : goal ∈ z :: rest := by
        have hfinish := h.finish
        rw [List.getLast?_append_of_ne_nil _ (List.cons_ne_nil z rest)] at hfinish
        exact List.mem_of_getLast? hfinish
      exact absurd rfl ((List.nodup_append.mp h.nodup).2.2 goal (hgoal ▸ hmem) goal hlast)
  · intro hgoal
    cases rest with
    | nil =>
      have hfinish := h.finish
      rw [List.append_nil, List.getLast?_concat] at hfinish
      exact absurd (Option.some.inj hfinish) hgoal
    | cons z rest =>
      have hedges := h.edges
      rw [List.append_assoc, List.singleton_append] at hedges
      exact ⟨z, (List.isChain_append_cons_cons.mp hedges).2.1, rest, by simp⟩

end Paths

/-! ### Paths a stack still leads to -/

/-- The paths that a stack still leads to. -/
def Pending (next : α → List α) : List (α × ℕ) → List α → Prop
  | [], _ => False
  | (x, tried) :: below, path =>
    (∃ y ∈ (next x).drop tried, spelled below ++ [x] ++ [y] <+: path) ∨ Pending next below path

section Pending

variable {next : α → List α} {x y : α} {tried : ℕ} {below : List (α × ℕ)} {path : List α}

/-- A frame without untried successors leads nowhere. -/
theorem Pending.back (hnone : (next x)[tried]? = none)
    (h : Pending next ((x, tried) :: below) path) : Pending next below path := by
  rcases h with ⟨y, hy, -⟩ | hbelow
  · rw [List.drop_eq_nil_of_le (List.getElem?_eq_none_iff.mp hnone)] at hy
    cases hy
  · exact hbelow

/-- When a successor is tried, a path is on it or stays pending. -/
theorem Pending.advance (hsome : (next x)[tried]? = some y)
    (h : Pending next ((x, tried) :: below) path) :
    spelled below ++ [x] ++ [y] <+: path ∨ Pending next ((x, tried + 1) :: below) path := by
  rcases h with ⟨z, hz, hsub⟩ | hbelow
  · obtain ⟨hlt, hget⟩ := List.getElem?_eq_some_iff.mp hsome
    rw [List.drop_eq_getElem_cons hlt, hget] at hz
    rcases List.mem_cons.mp hz with rfl | hlater
    · exact Or.inl hsub
    · exact Or.inr (Or.inl ⟨z, hlater, hsub⟩)
  · exact Or.inr (Or.inr hbelow)

/-- A path that goes on from the top is pending once the top is a frame of its own. -/
theorem pending_of_onward (hy : y ∈ next x) (hsub : spelled below ++ [x] ++ [y] <+: path) :
    Pending next ((x, 0) :: below) path :=
  Or.inl ⟨y, by rwa [List.drop_zero], hsub⟩

end Pending

/-- Every simple path between two places is pending at the start. -/
theorem SimplePath.pending {next : α → List α} {ok : α → Prop} {bound : ℕ} {source goal : α}
    {path : List α} (h : SimplePath next ok bound source goal path) (hne : source ≠ goal) :
    Pending next [(source, 0)] path := by
  have hsub : [] ++ [source] <+: path := by
    cases path with
    | nil => cases h.start
    | cons x rest =>
      obtain rfl := Option.some.inj h.start
      exact ⟨rest, rfl⟩
  obtain ⟨-, -, -, -, hgo⟩ := h.onward hsub
  obtain ⟨y, hy, honward⟩ := hgo hne
  exact pending_of_onward hy honward

end Lib
