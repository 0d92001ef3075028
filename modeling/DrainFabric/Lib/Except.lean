import Mathlib.Data.List.Basic

/-!
# Fallible computations

Inversion of computations in `Except`: from a computation that returned a value,
what each of its steps returned. A decoder is then taken apart with `obtain`
instead of being unfolded.

* `bind_eq_ok`, `pure_eq_ok` — one step;
* `mapM_map_eq_ok` — decoding a list element by element;
* `foldlM_ok`, `foldlM_exists` — the rules of a loop that may fail: what holds when it
  ends, and that it ends;
* `foldl_hands_on`, `foldl_field` — loops that cannot;
* `foldlM_map_eq_ok` — a loop over a list that was encoded element by element, which
  fails only on an element that cannot be read.
-/

namespace Lib

universe u v

variable {ε : Type v} {α β S : Type u}

theorem bind_eq_ok {x : Except ε α} {f : α → Except ε β} {b : β} :
    (x >>= f) = .ok b ↔ ∃ a, x = .ok a ∧ f a = .ok b := by
  cases x with
  | error err => simp [bind, Except.bind]
  | ok a => simp [bind, Except.bind]

theorem ok_bind (a : α) (f : α → Except ε β) : (Except.ok a >>= f) = f a := rfl

theorem pure_eq_ok {a b : α} : (pure a : Except ε α) = .ok b ↔ a = b := by
  simp [pure, Except.pure]

theorem exists_of_isOk {x : Except ε α} (h : x.isOk = true) : ∃ a, x = .ok a := by
  cases x with
  | error err => cases h
  | ok a => exact ⟨a, rfl⟩

theorem mapError_eq_ok {ε' : Type v} {x : Except ε α} {f : ε → ε'} {a : α} :
    x.mapError f = .ok a ↔ x = .ok a := by
  cases x with
  | error err => simp [Except.mapError]
  | ok b => simp [Except.mapError]

/-- Decoding an encoded list succeeds exactly when every element can be decoded. -/
theorem mapM_map_eq_ok {γ : Type u} {enc : α → β} {dec : β → Except ε γ} {R : α → Prop}
    {norm : α → γ} (hdec : ∀ a c, dec (enc a) = .ok c ↔ R a ∧ c = norm a) {l : List α}
    {l' : List γ} : (l.map enc).mapM dec = .ok l' ↔ (∀ a ∈ l, R a) ∧ l' = l.map norm := by
  induction l generalizing l' with
  | nil =>
    rw [List.map_nil, List.mapM_nil, pure_eq_ok]
    simp [eq_comm]
  | cons a rest ih =>
    rw [List.map_cons, List.mapM_cons]
    simp only [bind_eq_ok, pure_eq_ok, hdec, ih]
    constructor
    · rintro ⟨c, ⟨ha, rfl⟩, cs, ⟨hrest, rfl⟩, rfl⟩
      exact ⟨List.forall_mem_cons.mpr ⟨ha, hrest⟩, rfl⟩
    · rintro ⟨hall, rfl⟩
      obtain ⟨ha, hrest⟩ := List.forall_mem_cons.mp hall
      exact ⟨norm a, ⟨ha, rfl⟩, rest.map norm, ⟨hrest, rfl⟩, rfl⟩

theorem mapM_map_eq_ok_self {enc : α → β} {dec : β → Except ε α} {R : α → Prop}
    (hdec : ∀ a c, dec (enc a) = .ok c ↔ R a ∧ c = a) {l l' : List α} :
    (l.map enc).mapM dec = .ok l' ↔ (∀ a ∈ l, R a) ∧ l' = l := by
  have h : (l.map enc).mapM dec = .ok l' ↔ (∀ a ∈ l, R a) ∧ l' = l.map (fun a => a) :=
    mapM_map_eq_ok hdec
  rwa [List.map_id'] at h

/-- A property of the loop state that every successful iteration keeps holds when
the loop ends. -/
theorem foldlM_ok {step : S → α → Except ε S} {P : S → Prop} {l : List α}
    (hstep : ∀ s a s', a ∈ l → P s → step s a = .ok s' → P s') {s s' : S} (hs : P s)
    (h : l.foldlM step s = .ok s') : P s' := by
  induction l generalizing s with
  | nil =>
    rw [List.foldlM_nil, pure_eq_ok] at h
    exact h ▸ hs
  | cons a rest ih =>
    rw [List.foldlM_cons] at h
    obtain ⟨mid, hmid, h⟩ := bind_eq_ok.mp h
    exact ih (fun s b s' hb => hstep s b s' (List.mem_cons_of_mem _ hb))
      (hstep s a mid List.mem_cons_self hs hmid) h

/-- A condition on the state and on what is left to do that every iteration hands on holds
at the end, when nothing is left. -/
theorem foldl_hands_on {A T : Type*} {g : T → A → T} {I : T → List A → Prop}
    (hnext : ∀ s a rest, I s (a :: rest) → I (g s a) rest) {s : T} {l : List A} (hs : I s l) :
    I (l.foldl g s) [] := by
  induction l generalizing s with
  | nil => exact hs
  | cons a rest ih => exact ih (hnext s a rest hs)

/-- A loop that works on one field of its state. -/
theorem foldl_field {A S T : Type*} (field : S → T) (update : S → T → S)
    (hfield : ∀ s t, field (update s t) = t) (hself : ∀ s, update s (field s) = s)
    (hupdate : ∀ s t t', update (update s t) t' = update s t') (g : T → A → T) (l : List A)
    (s : S) : l.foldl (fun s a => update s (g (field s) a)) s = update s (l.foldl g (field s)) := by
  induction l generalizing s with
  | nil => exact (hself s).symm
  | cons a rest ih => rw [List.foldl_cons, ih, hupdate, hfield, List.foldl_cons]

/-- A loop over encoded elements that, in the states it comes through, fails only on an
element that cannot be read. `I` is a condition on the state and on what is left to do. -/
theorem foldlM_map_eq_ok {A J : Type*} {enc : A → J} {step : S → J → Except ε S} {g : S → A → S}
    {R : A → Prop} {I : S → List A → Prop}
    (hstep : ∀ s a rest s', I s (a :: rest) → (step s (enc a) = .ok s' ↔ R a ∧ s' = g s a))
    (hnext : ∀ s a rest, I s (a :: rest) → I (g s a) rest) {s s' : S} {l : List A} (hs : I s l) :
    (l.map enc).foldlM step s = .ok s' ↔ (∀ a ∈ l, R a) ∧ s' = l.foldl g s := by
  induction l generalizing s with
  | nil =>
    rw [List.map_nil, List.foldlM_nil, pure_eq_ok, List.foldl_nil]
    exact ⟨fun h => ⟨fun _ ha => (by cases ha), h.symm⟩, fun h => h.2.symm⟩
  | cons a rest ih =>
    have hrest := ih (hnext s a rest hs)
    rw [List.map_cons, List.foldlM_cons, bind_eq_ok, List.foldl_cons]
    constructor
    · rintro ⟨mid, hmid, h⟩
      obtain ⟨ha, rfl⟩ := (hstep s a rest mid hs).mp hmid
      obtain ⟨hall, rfl⟩ := hrest.mp h
      exact ⟨List.forall_mem_cons.mpr ⟨ha, hall⟩, rfl⟩
    · rintro ⟨hall, rfl⟩
      obtain ⟨ha, hall⟩ := List.forall_mem_cons.mp hall
      exact ⟨_, (hstep s a rest _ hs).mpr ⟨ha, rfl⟩, hrest.mpr ⟨hall, rfl⟩⟩

/-- Two options that agree under a function hold values that agree. -/
theorem exists_of_map_eq {f : α → β} {x y : Option α} {b : α} (h : x.map f = y.map f)
    (hy : y = some b) : ∃ a, x = some a ∧ f a = f b :=
  Option.map_eq_some_iff.mp (h.trans (congrArg (Option.map f) hy))

end Lib
