import DrainFabric.Codec.Tables
import DrainFabric.Codec.Topology
import DrainFabric.Engine.Attempts

/-!
# Sound states

What the reader of a snapshot relies on beyond the entries themselves: the topology as its
operations build it, tables numbered below their high-water marks, and the bounds that the
tables take from the policy. Every write keeps it, and a recovery finds it again.

* `ObligationTable.insert_cases`, `ObligationTable.foldl_retireOne` — what is done to the
  obligations;
* `World.Sound`, `Reachable.sound` — the states that can be reached are sound.
-/

namespace DrainFabric

open Lib

variable {t : ObligationTable} {r r' : AuthorityRegistry}

/-! ### Obligations -/

namespace ObligationTable

/-- What an insertion leaves: the table as it was, with a number used up, or with the
draft under that number. -/
theorem insert_cases (t : ObligationTable) (draft : Obligation) :
    (t.insert draft).1 = t ∨
      t.size < t.maxObligations ∧
        ((t.insert draft).1 = { t with highWater := t.highWater + 1 } ∨
          t.find (t.highWater + 1) = none ∧
            (t.insert draft).1 =
              { t.store { draft with id := t.highWater + 1 } with
                highWater := t.highWater + 1 }) := by
  unfold insert
  split_ifs with hfull
  · exact Or.inl rfl
  · cases hnext : incrementChecked t.highWater with
    | none => exact Or.inl rfl
    | some next =>
      obtain ⟨-, rfl⟩ := incrementChecked_eq_some hnext
      refine Or.inr ⟨Nat.not_le.mp hfull, ?_⟩
      cases hput : t.obligations.emplace { draft with id := t.highWater + 1 } with
      | none => exact Or.inl (by simp only [hput])
      | some obligations =>
        obtain ⟨hfree, rfl⟩ := Table.emplace_eq_some hput
        simp only [hput]
        exact Or.inr ⟨hfree, rfl⟩

theorem Numbered.insert (h : t.Numbered) (draft : Obligation) : (t.insert draft).1.Numbered := by
  have hraised : ∀ o ∈ t.all, o.id ≠ 0 ∧ o.id ≤ t.highWater + 1 := fun o ho =>
    ⟨(h o ho).1, (h o ho).2.trans (Nat.le_succ _)⟩
  rcases t.insert_cases draft with heq | ⟨-, heq | ⟨-, heq⟩⟩ <;> rw [heq]
  · exact h
  · exact hraised
  · exact Table.forall_put hraised ⟨Nat.succ_ne_zero _, le_rfl⟩

theorem maxObligations_insert (t : ObligationTable) (draft : Obligation) :
    (t.insert draft).1.maxObligations = t.maxObligations := by
  rcases t.insert_cases draft with heq | ⟨-, heq | ⟨-, heq⟩⟩
  · rw [heq]
  · rw [heq]
  · rw [heq]
    rfl

/-- Rewriting an obligation that is there. -/
theorem Numbered.store (h : t.Numbered) {o o' : Obligation} (ho : t.find o.id = some o)
    (hid : o'.id = o.id) : (t.store o').Numbered :=
  Table.forall_put h (hid ▸ h o (mem_all_iff.mpr ho))

/-- The retiring loop rewrites obligations that are there, and nothing else. -/
theorem foldl_retireOne {P : ObligationTable → Prop} (now : TimePoint)
    (hstore : ∀ t o o', P t → t.find o.id = some o →
      o.applyState o.revision .retired o.releaseEvidence now = .ok o' → P (t.store o'))
    (ids : List ObligationId) (acc : ObligationTable × Nat) (h : P acc.1) :
    P (ids.foldl (Engine.retireOne now) acc).1 := by
  induction ids generalizing acc with
  | nil => exact h
  | cons id rest ih =>
    refine ih _ ?_
    unfold Engine.retireOne
    cases hfind : acc.1.find id with
    | none => exact h
    | some o =>
      cases happly : o.applyState o.revision .retired o.releaseEvidence now with
      | error err => simpa only [happly] using h
      | ok o' =>
        obtain rfl := id_of_find hfind
        simpa only [happly] using hstore acc.1 o o' h hfind happly

end ObligationTable

/-! ### Authority -/

namespace AuthorityRegistry

theorem Numbered.revokeAll (h : r.Numbered) (at_ : TimePoint) (reason : String) :
    (r.revokeAll at_ reason).Numbered := by
  intro t ht
  obtain ⟨old, hold, rfl⟩ := List.mem_map.mp ht
  have hid : (if old.revoked then old else old.revoke at_ reason).id = old.id := by
    split_ifs <;> rfl
  rw [hid]
  exact h old hold

theorem Numbered.issue {scope : DomainId} {at_ : TimePoint} {validity : Duration}
    {token : AuthorityToken} (h : r.Numbered)
    (hissue : r.issue scope at_ validity = .ok (r', token)) : r'.Numbered := by
  obtain ⟨rfl, rfl⟩ := issue_eq_ok hissue
  have hraised : ∀ t ∈ r.tokens.toList, t.id ≤ r.highWater + 1 := fun t ht =>
    (h t ht).trans (Nat.le_succ _)
  intro t ht
  dsimp only at ht ⊢
  cases hput : r.tokens.emplace _ with
  | none =>
    rw [hput] at ht
    exact hraised t ht
  | some tokens =>
    rw [hput, (Table.emplace_eq_some hput).2] at ht
    exact Table.forall_put hraised le_rfl t ht

theorem Numbered.revoke {id : AuthorityId} {at_ : TimePoint} {reason : String} (h : r.Numbered)
    (hrevoke : r.revoke id at_ reason = .ok r') : r'.Numbered := by
  obtain ⟨token, htoken, rfl⟩ := revoke_eq_ok.mp hrevoke
  exact Table.forall_put h (h token (Table.mem_of_find? htoken))

end AuthorityRegistry

/-! ### States -/

namespace World

/-- What the reader of a snapshot relies on. -/
structure Sound (w : World) : Prop where
  topology : w.topology.Sound
  ledger : w.evidence.Coherent
  ledgerBound : w.evidence.maxRecords = w.policy.maxEvidenceRecords
  obligations : w.obligations.Numbered
  obligationBound : w.obligations.maxObligations = w.policy.maxObligations
  tokens : w.authority.Numbered

theorem sound_init (policy : DrainPolicy) : Sound (Engine.init policy).toWorld :=
  ⟨Topology.sound_empty, EvidenceLedger.coherent_empty _, rfl, fun _ h => (by cases h), rfl,
    fun _ h => (by cases h)⟩

theorem Sound.write {w w' : World} {ev : Event} (h : Sound w) (hwrite : Write w ev w') :
    Sound w' := by
  cases hwrite with
  | policy =>
    exact { h with ledger := h.ledger.congr (fun _ _ => rfl) rfl rfl, ledgerBound := rfl,
                   obligationBound := rfl }
  | incarnation hinstall =>
    obtain ⟨-, rfl⟩ := AuthorityRegistry.installIncarnation_eq_ok.mp hinstall
    exact { h with tokens := h.tokens }
  | line hinstall =>
    obtain ⟨-, -, -, -, rfl⟩ := AuthorityRegistry.installLine_eq_ok.mp hinstall
    exact { h with tokens := AuthorityRegistry.Numbered.revokeAll h.tokens _ _,
                   ledger := h.ledger.quarantineAll }
  | token hissue => exact { h with tokens := h.tokens.issue hissue }
  | revocation hrevoke => exact { h with tokens := h.tokens.revoke hrevoke }
  | resource hadd => exact { h with topology := h.topology.addResource hadd }
  | edge hadd => exact { h with topology := h.topology.addEdge hadd }
  | path hadd => exact { h with topology := h.topology.addPath hadd }
  | group hadd => exact { h with topology := h.topology.addDiversityGroup hadd }
  | pool hadd => exact { h with topology := h.topology.addCapacityPool hadd }
  | route hadd => exact { h with topology := h.topology.addProtectedRoute hadd }
  | status hset => exact { h with topology := h.topology.setStatus hset }
  | admission =>
    exact { h with obligations := h.obligations.insert _,
                   obligationBound :=
                     (ObligationTable.maxObligations_insert _ _).trans h.obligationBound }
  | report hfind hfence happly =>
    obtain ⟨hterms, -⟩ := SameTerms.of_applyState happly
    have hid := ObligationTable.id_of_find hfind
    exact { h with obligations := h.obligations.store (hid.symm ▸ hfind) hterms.id }
  | evidence =>
    exact { h with ledger := h.ledger.record _ _ _,
                   ledgerBound :=
                     (EvidenceLedger.maxRecords_record h.ledger _ _ _).trans h.ledgerBound }
  | attestation hattest =>
    exact { h with ledger := h.ledger.attest hattest,
                   ledgerBound :=
                     (EvidenceLedger.attest_frame hattest).2.1.trans h.ledgerBound }
  | observation =>
    exact { h with ledger := h.ledger.record _ _ _,
                   ledgerBound :=
                     (EvidenceLedger.maxRecords_record h.ledger _ _ _).trans h.ledgerBound }
  | @retirement id now r hr =>
    have hretired := ObligationTable.foldl_retireOne
      (P := fun t => t.Numbered ∧ t.maxObligations = w.policy.maxObligations) now
      (fun t o o' ht ho happly => ⟨ht.1.store ho (SameTerms.of_applyState happly).1.id, ht.2⟩)
      (w.retirable r now) (w.obligations, 0) ⟨h.obligations, h.obligationBound⟩
    exact { h with obligations := hretired.1, obligationBound := hretired.2 }
  | _ => exact { h with }

end World

namespace Engine

open World

theorem Recovery.sound {e recovered : Engine} {prev : IncarnationId} {now : TimePoint}
    (h : Recovery e prev now recovered) (hw : Sound e.toWorld) : Sound recovered.toWorld := by
  obtain ⟨loaded, hload, hledger⟩ := h.evidence
  obtain ⟨registry, hregistry, hauthority⟩ := h.authority
  obtain ⟨-, htopology⟩ := (Topology.loadFromJson_eq_ok hw.topology).mp h.topology
  obtain ⟨-, hobligations⟩ := (ObligationTable.loadFromJson_eq_ok hw.obligations).mp h.obligations
  obtain ⟨-, rfl⟩ := (EvidenceLedger.loadFromJson_eq_ok hw.ledger).mp hload
  obtain ⟨-, rfl⟩ := (AuthorityRegistry.loadFromJson_eq_ok hw.tokens).mp hregistry
  refine ⟨htopology ▸ hw.topology, ?_, ?_, ?_, ?_, ?_⟩
  · rw [hledger]
    exact (EvidenceLedger.coherent_load hload).quarantineAll
  · rw [hledger]
    rfl
  · rw [hobligations]
    intro o ho
    obtain ⟨old, hold, rfl⟩ := List.mem_map.mp ho
    exact hw.obligations old hold
  · rw [hobligations]
  · rw [hauthority]
    refine AuthorityRegistry.Numbered.revokeAll ?_ _ _
    intro t ht
    obtain ⟨old, hold, rfl⟩ := List.mem_map.mp ht
    exact hw.tokens old hold

theorem sound_fire (e : Engine) (ev : Event) (h : Sound e.toWorld) : Sound (e.fire ev).toWorld :=
  fire_wellFormed (fun _ _ _ hwrite hw => hw.write hwrite)
    (fun _ _ _ _ hrec hw => hrec.sound hw) e ev h

theorem Reachable.sound {C : Engine → Event → Prop} {e : Engine} (he : Reachable C e) :
    Sound e.toWorld :=
  he.invariant sound_init (fun e ev h _ => sound_fire e ev h)

end Engine

end DrainFabric
