import DrainFabric.Engine.Closing

/-!
# The evacuation attempts of a drain

`evacuation_requests` counts the passes that asked for the evacuation of a drain's
obligations since the last exception was granted. Nothing but these two writes it: a
turn raises it by one when it issues requests and leaves it alone otherwise, and among
the operations only `grant_exception` touches it.

* `attempted_turn`, `tallied_apply` — the counter after a turn and after an operation;
* `grants_write`, `Recovery.grants` — the exceptions of a drain, which only ever grow.
-/

namespace DrainFabric

open Lib

variable {m : OrdMap DrainId (List ExceptionGrant)}

namespace World

/-- The table holds the drain of `r` with the attempts of `r`. -/
def Tallied (w : World) (r : DrainRecord) : Prop :=
  ∃ r', w.drain r.id = some r' ∧ r'.evacuationRequests = r.evacuationRequests

end World

namespace Engine

open World

/-- What a step or a turn that issued `requests` leaves of the counter. -/
def Attempted (w : World) (r : DrainRecord) (requests : List EvacuationRequest) : Prop :=
  (requests = [] ∧ Tallied w r) ∨ (requests ≠ [] ∧ ∃ r', w.drain r.id = some r' ∧
    r'.evacuationRequests = (r.evacuationRequests + 1) % 2 ^ 32)

variable {e : Engine} {r : DrainRecord}

/-- A turn counts the requests it issues as one attempt. -/
theorem attempted_turn {id : DrainId} (h : e.drain id = some r) (now : TimePoint) :
    Attempted (e.turn id now).1.toWorld r (e.turn id now).2 := by
  obtain rfl := id_of_drain h
  obtain ⟨hacts, hcounted⟩ := @turn_strokes False e r.id now (fun h => h.elim)
  by_cases hnone : (e.turn r.id now).2 = []
  · exact Or.inl ⟨hnone, hacts.confined.attempts (not_not_intro hnone) r.id r h⟩
  · exact Or.inr ⟨hnone, hcounted hnone r h⟩

/-- Only an exception grant for the drain itself touches its counter. -/
theorem tallied_apply {c : Call} {id : DrainId} (h : e.drain id = some r)
    (hc : ∀ obligation extension authority now,
      c ≠ .grantException id obligation extension authority now) :
    Tallied (e.apply c).toWorld r := by
  obtain rfl := id_of_drain h
  have hacts := (@apply_strokes False e c (fun h => h.elim)).confined
  by_cases hname : c.drain = some r.id
  · refine hacts.attempts ?_ r.id r h
    rintro ⟨id, obligation, extension, authority, now, rfl⟩
    obtain rfl := Option.some.inj hname
    exact hc obligation extension authority now rfl
  · exact ⟨r, hacts.others r.id r h hname, rfl⟩

end Engine

theorem Engine.evacuationRequests_recovered (now : TimePoint) (r : DrainRecord) :
    (recoveredRecord now r.reloaded).evacuationRequests = r.evacuationRequests := by
  unfold recoveredRecord
  split_ifs <;> rfl

/-! ### Exceptions -/

namespace World

/-- The exceptions granted to a drain. -/
def grants (w : World) (id : DrainId) : List ExceptionGrant :=
  (OrdMap.get? w.exceptions id).getD []

/-- Every exception is filed under the drain it was granted to. -/
def Assigned (w : World) : Prop := ∀ id, ∀ grant ∈ w.grants id, grant.drain = id

theorem grants_withGrant (w : World) (grant : ExceptionGrant) (id : DrainId) :
    (w.withGrant grant).grants id =
      if grant.drain = id then w.grants id ++ [grant] else w.grants id := by
  unfold grants withGrant
  rw [OrdMap.get?_set]
  split_ifs with hid
  · subst hid
    rfl
  · rfl

/-- Looking the exceptions of a drain up does not change them. -/
theorem grants_budget (w : World) (other id : DrainId) :
    (w.withExceptions (OrdMap.set w.exceptions other
      ((OrdMap.get? w.exceptions other).getD []))).grants id = w.grants id := by
  unfold grants withExceptions
  rw [OrdMap.get?_set]
  split_ifs with hid
  · subst hid
    rfl
  · rfl

/-- A write leaves the exceptions of a drain alone, unless it grants it one. -/
theorem grants_write {w w' : World} {ev : Event} (h : Write w ev w') (id : DrainId) :
    w'.grants id = w.grants id ∨
      ∃ obligation extension authority now grant, grant.drain = id ∧
        ev = .call (.grantException id obligation extension authority now) ∧
        (w.grants id).length < w.policy.maxExceptionExtensions ∧
        w'.grants id = w.grants id ++ [grant] := by
  cases h with
  | budget => exact Or.inl (grants_budget w _ id)
  | @grant obligation extension authority now r sequence hr _ hroom =>
    rw [grants_withGrant]
    split_ifs with hid
    · subst hid
      exact Or.inr ⟨obligation, extension, authority, now, _, rfl, rfl, hroom, rfl⟩
    · exact Or.inl rfl
  | _ => exact Or.inl rfl

theorem Assigned.write {w w' : World} {ev : Event} (h : Write w ev w') (hw : Assigned w) :
    Assigned w' := by
  intro id grant hgrant
  rcases grants_write h id with hsame | ⟨_, _, _, _, new, hnew, -, -, happend⟩
  · exact hw id grant (hsame ▸ hgrant)
  · rw [happend] at hgrant
    rcases List.mem_append.mp hgrant with hold | hlast
    · exact hw id grant hold
    · rwa [List.mem_singleton.mp hlast]

/-- The exceptions of one drain among those of all. -/
theorem filter_grants (h : ∀ p ∈ m.toList, ∀ grant ∈ p.2, grant.drain = p.1) (id : DrainId) :
    (m.toList.flatMap Prod.snd).filter (fun grant => decide (grant.drain = id)) =
      (OrdMap.get? m id).getD [] := by
  have hsorted := m.sorted
  unfold OrdMap.get? Table.find?
  generalize m.toList = l at h hsorted
  induction l with
  | nil => rfl
  | cons p rest ih =>
    rw [List.pairwise_cons] at hsorted
    have hrest := ih (fun q hq => h q (List.mem_cons_of_mem p hq)) hsorted.2
    rw [List.flatMap_cons, List.filter_append]
    by_cases hp : p.1 = id
    · -- The list of the drain is here, and no other key is the same.
      have hall : p.2.filter (fun grant => decide (grant.drain = id)) = p.2 :=
        List.filter_eq_self.mpr (fun grant hgrant => by
          rw [decide_eq_true_iff, h p List.mem_cons_self grant hgrant, hp])
      have hnone : (rest.flatMap Prod.snd).filter (fun grant => decide (grant.drain = id)) = [] := by
        refine List.filter_eq_nil_iff.mpr (fun grant hgrant => ?_)
        obtain ⟨q, hq, hmem⟩ := List.mem_flatMap.mp hgrant
        rw [decide_eq_true_iff, h q (List.mem_cons_of_mem p hq) grant hmem]
        exact fun heq => absurd (hsorted.1 q hq) (by rw [hp, heq]; exact lt_irrefl id)
      rw [hall, hnone, List.append_nil, List.find?_cons_of_pos (by simpa using hp)]
      rfl
    · have hnone : p.2.filter (fun grant => decide (grant.drain = id)) = [] :=
        List.filter_eq_nil_iff.mpr (fun grant hgrant => by
          rwa [decide_eq_true_iff, h p List.mem_cons_self grant hgrant])
      rw [hnone, List.nil_append, hrest, List.find?_cons_of_neg (by simpa using hp)]

end World

namespace Engine

open World

/-- Loading exceptions files each under its drain, in order. -/
theorem foldlM_loadException {l : List ExceptionGrant} {m' : OrdMap DrainId (List ExceptionGrant)}
    (h : (l.map ExceptionGrant.toJson).foldlM loadException m = .ok m') (id : DrainId) :
    (OrdMap.get? m' id).getD [] = (OrdMap.get? m id).getD [] ++
      (l.filter (fun grant => decide (grant.drain = id))).map ExceptionGrant.persisted := by
  induction l generalizing m with
  | nil =>
    obtain rfl := Except.ok.inj h
    simp
  | cons grant rest ih =>
    rw [List.map_cons, List.foldlM_cons, bind_eq_ok] at h
    obtain ⟨m₁, hload, hrest⟩ := h
    simp only [loadException, bind_eq_ok, pure_eq_ok, mapError_eq_ok,
      ExceptionGrant.fromJson_eq_ok] at hload
    obtain ⟨_, ⟨-, rfl⟩, rfl⟩ := hload
    rw [ih hrest, OrdMap.get?_set, List.filter_cons]
    have hdrain : grant.persisted.drain = grant.drain := rfl
    rw [hdrain]
    by_cases hid : grant.drain = id
    · subst hid
      simp
    · simp [hid]

/-- The exceptions of a drain are recovered as they were, up to the sign of their times. -/
theorem Recovery.grants {e recovered : Engine} {prev : IncarnationId} {now : TimePoint}
    (h : Recovery e prev now recovered) (hw : Assigned e.toWorld) (id : DrainId) :
    recovered.grants id = (e.grants id).map ExceptionGrant.persisted := by
  have hload : ((e.exceptions.toList.flatMap Prod.snd).map ExceptionGrant.toJson).foldlM
      loadException (Table.empty Prod.fst) = .ok recovered.exceptions := by
    rw [List.map_flatMap]
    exact h.exceptions.2
  have hown : ∀ p ∈ e.exceptions.toList, ∀ grant ∈ p.2, grant.drain = p.1 := by
    intro p hp grant hgrant
    refine hw p.1 grant ?_
    rw [World.grants, OrdMap.get?_eq_some_iff.mpr hp]
    exact hgrant
  rw [World.grants, foldlM_loadException hload id, filter_grants hown]
  rfl

theorem assigned_fire (e : Engine) (ev : Event) (h : Assigned e.toWorld) :
    Assigned (e.fire ev).toWorld := by
  refine fire_wellFormed (fun _ _ _ hwrite hw => hw.write hwrite) ?_ e ev h
  intro e prev now recovered hrec hw id grant hgrant
  rw [hrec.grants hw] at hgrant
  obtain ⟨original, horiginal, rfl⟩ := List.mem_map.mp hgrant
  exact hw id original horiginal

end Engine

end DrainFabric
