import DrainFabric.Authority
import DrainFabric.Lib.Run

/-!
# Presented tokens

A peer presents a whole token, and the registry checks the presentation. The id is
looked up and revocation is read off the stored token; the line, the generation and
the expiry are read off the presentation and compared with the registry and the clock.
The stored token has a scope, a generation, a line and an expiry of its own, and those
are not looked at.

* `Issued` — what a registry knows of a token is what it was issued with;
* `presentation_pinned_iff` — exactly when an accepted presentation is the issued token;
* `presentation_forged` — an expired token of one domain, accepted for every domain.
-/

namespace DrainFabric

open Lib

/-- The operations of the registry. -/
inductive RegistryOperation
  | installIncarnation (incarnation : IncarnationId)
  | beginNewEpoch (incarnation : IncarnationId) (at_ : TimePoint) (reason : String)
  | installLine (incarnation : IncarnationId) (epoch : Epoch) (at_ : TimePoint) (reason : String)
  | issue (scope : DomainId) (at_ : TimePoint) (validity : Duration)
  | advanceScopeGeneration (scope : DomainId)
  | revoke (id : AuthorityId) (at_ : TimePoint) (reason : String)
  | revokeAll (at_ : TimePoint) (reason : String)

variable {history : List RegistryOperation}

namespace AuthorityRegistry

/-- The registry after an operation; a failed one leaves it as it was. -/
def perform (r : AuthorityRegistry) : RegistryOperation → AuthorityRegistry
  | .installIncarnation incarnation => (r.installIncarnation incarnation).toOption.getD r
  | .beginNewEpoch incarnation at_ reason =>
    (r.beginNewEpoch incarnation at_ reason).toOption.getD r
  | .installLine incarnation epoch at_ reason =>
    (r.installLine incarnation epoch at_ reason).toOption.getD r
  | .issue scope at_ validity => ((r.issue scope at_ validity).toOption.map Prod.fst).getD r
  | .advanceScopeGeneration scope => ((r.advanceScopeGeneration scope).toOption.map Prod.fst).getD r
  | .revoke id at_ reason => (r.revoke id at_ reason).toOption.getD r
  | .revokeAll at_ reason => r.revokeAll at_ reason

/-- The registry after a history of operations. -/
def after (history : List RegistryOperation) : AuthorityRegistry := run perform {} history

/-- The tokens agree in what they are issued with. -/
structure SameGrant (t known : AuthorityToken) : Prop where
  id : t.id = known.id
  scope : t.scope = known.scope
  generation : t.generation = known.generation
  epoch : t.epoch = known.epoch
  incarnation : t.incarnation = known.incarnation
  expiresAt : t.expiresAt = known.expiresAt

theorem SameGrant.refl (t : AuthorityToken) : SameGrant t t := ⟨rfl, rfl, rfl, rfl, rfl, rfl⟩

/-- Some operation of the history issued the token. -/
def Issued (history : List RegistryOperation) (known : AuthorityToken) : Prop :=
  ∃ earlier scope at_ validity later r token,
    history = earlier ++ .issue scope at_ validity :: later ∧
    (after earlier).issue scope at_ validity = .ok (r, token) ∧ SameGrant token known

theorem Issued.concat {known : AuthorityToken} (h : Issued history known) (op : RegistryOperation) :
    Issued (history ++ [op]) known := by
  obtain ⟨earlier, scope, at_, validity, later, r, token, rfl, hissue, hsame⟩ := h
  exact ⟨earlier, scope, at_, validity, later ++ [op], r, token, by simp, hissue, hsame⟩

/-- Every stored token was issued, and while it is not revoked its epoch is in force. -/
structure Traced (history : List RegistryOperation) (r : AuthorityRegistry) : Prop where
  issued : ∀ id known, r.find id = some known → Issued history known
  live : ∀ id known, r.find id = some known → known.revoked = false → known.epoch = r.epoch

theorem traced_revokeAll {history : List RegistryOperation} {r : AuthorityRegistry}
    (h : ∀ id known, r.find id = some known → Issued history known) (at_ : TimePoint)
    (reason : String) : Traced history (r.revokeAll at_ reason) := by
  constructor
  · intro id known hknown
    rw [find_revokeAll] at hknown
    obtain ⟨old, hold, rfl⟩ := Option.map_eq_some_iff.mp hknown
    obtain ⟨earlier, scope, at', validity, later, r', token, hsplit, hissue, hsame⟩ := h id old hold
    refine ⟨earlier, scope, at', validity, later, r', token, hsplit, hissue, ?_⟩
    split_ifs
    · exact hsame
    · exact ⟨hsame.id, hsame.scope, hsame.generation, hsame.epoch, hsame.incarnation,
        hsame.expiresAt⟩
  · intro id known hknown hlive
    rw [revoked_of_revokeAll hknown] at hlive
    cases hlive

theorem traced_perform (op : RegistryOperation) (h : Traced history (after history)) :
    Traced (history ++ [op]) ((after history).perform op) := by
  have hkeep : Traced (history ++ [op]) (after history) :=
    ⟨fun id known hknown => (h.issued id known hknown).concat op, h.live⟩
  cases op with
  | installIncarnation incarnation =>
    simp only [perform]
    cases hop : (after history).installIncarnation incarnation with
    | error err => exact hkeep
    | ok r =>
      obtain ⟨-, rfl⟩ := installIncarnation_eq_ok.mp hop
      exact ⟨hkeep.issued, hkeep.live⟩
  | beginNewEpoch incarnation at_ reason =>
    simp only [perform]
    cases hop : (after history).beginNewEpoch incarnation at_ reason with
    | error err => exact hkeep
    | ok r =>
      obtain ⟨-, -, rfl⟩ := beginNewEpoch_eq_ok.mp hop
      exact @traced_revokeAll _ { after history with
        incarnation, epoch := (after history).epoch + 1 } hkeep.issued at_ reason
  | installLine incarnation epoch at_ reason =>
    simp only [perform]
    cases hop : (after history).installLine incarnation epoch at_ reason with
    | error err => exact hkeep
    | ok r =>
      obtain ⟨-, -, -, -, rfl⟩ := installLine_eq_ok.mp hop
      exact @traced_revokeAll _ { after history with incarnation, epoch } hkeep.issued at_ reason
  | issue scope at_ validity =>
    simp only [perform]
    rcases hop : (after history).issue scope at_ validity with err | ⟨r, token⟩
    · exact hkeep
    · obtain ⟨htoken, hr⟩ := issue_eq_ok hop
      have hnew : Issued (history ++ [.issue scope at_ validity]) token :=
        ⟨history, scope, at_, validity, [], r, token, rfl, hop, .refl token⟩
      -- A token of the registry was there before, or is the new one.
      have hcases : ∀ id known, r.find id = some known →
          (after history).find id = some known ∨ known = token := by
        intro id known hknown
        rw [hr, find, Table.find?_emplace, Option.or_eq_some_iff] at hknown
        rcases hknown with hold | ⟨-, hknown⟩
        · exact Or.inl hold
        · split_ifs at hknown
          exact Or.inr (Option.some.inj hknown).symm
      show Traced _ r
      constructor
      · intro id known hknown
        rcases hcases id known hknown with hold | rfl
        · exact hkeep.issued id known hold
        · exact hnew
      · intro id known hknown hlive
        have hepoch : r.epoch = (after history).epoch := by rw [hr]
        rw [hepoch]
        rcases hcases id known hknown with hold | rfl
        · exact hkeep.live id known hold hlive
        · rw [htoken]
  | advanceScopeGeneration scope =>
    simp only [perform, advanceScopeGeneration]
    cases incrementChecked ((after history).scopeGeneration scope) with
    | none => exact hkeep
    | some next => exact ⟨hkeep.issued, hkeep.live⟩
  | revoke id at_ reason =>
    simp only [perform, revoke]
    cases hfind : (after history).find id with
    | none => exact hkeep
    | some token =>
      have hcases : ∀ other known,
          ({ after history with
            tokens := (after history).tokens.put (token.revoke at_ reason) } :
              AuthorityRegistry).find other = some known →
          (after history).find other = some known ∨ known = token.revoke at_ reason := by
        intro other known hknown
        rw [find, Table.find?_put] at hknown
        split_ifs at hknown
        · exact Or.inr (Option.some.inj hknown).symm
        · exact Or.inl hknown
      constructor
      · intro other known hknown
        rcases hcases other known hknown with hold | rfl
        · exact hkeep.issued other known hold
        · obtain ⟨earlier, scope, at', validity, later, r, issued, hsplit, hissue, hsame⟩ :=
            hkeep.issued id token hfind
          exact ⟨earlier, scope, at', validity, later, r, issued, hsplit, hissue,
            hsame.id, hsame.scope, hsame.generation, hsame.epoch, hsame.incarnation,
            hsame.expiresAt⟩
      · intro other known hknown hlive
        rcases hcases other known hknown with hold | rfl
        · exact hkeep.live other known hold hlive
        · cases hlive
  | revokeAll at_ reason => exact traced_revokeAll hkeep.issued at_ reason

theorem traced_after (history : List RegistryOperation) : Traced history (after history) := by
  induction history using List.reverseRecOn with
  | nil => exact ⟨fun _ _ h => (by cases h), fun _ _ h => (by cases h)⟩
  | append_singleton earlier op ih =>
    rw [after, run_concat]
    exact traced_perform op ih

/-- The presented token is the one that was issued under its id, which is not revoked and has
not expired. -/
def Pinned (history : List RegistryOperation) (t : AuthorityToken) (now : TimePoint) : Prop :=
  ∃ known, (after history).find t.id = some known ∧ Issued history known ∧
    known.revoked = false ∧ SameGrant t known ∧ known.expiredAt now = false

/-- The presentation has the scope and the expiry of the stored token, and neither the
incarnation nor the generation of the scope has moved on since the token was issued. -/
def Unaltered (r : AuthorityRegistry) (t : AuthorityToken) : Prop :=
  ∀ known, r.find t.id = some known →
    t.scope = known.scope ∧ t.expiresAt = known.expiresAt ∧
      known.incarnation = r.incarnation ∧ known.generation = r.scopeGeneration known.scope

end AuthorityRegistry

open AuthorityRegistry

/-- After every history of the registry: an accepted presentation is the issued token, not
revoked and not expired, exactly when its scope and expiry are those of the stored token and
neither the incarnation nor the generation of its scope has moved on since. -/
theorem presentation_pinned_iff (history : List RegistryOperation) (t : AuthorityToken)
    (now : TimePoint) (hok : (after history).validate t now = .ok ()) :
    Pinned history t now ↔ Unaltered (after history) t := by
  obtain ⟨known, hknown, hlive, hincarnation, hepoch, hgeneration, hexpiry⟩ := validate_eq_ok.mp hok
  have htraced := traced_after history
  constructor
  · rintro ⟨known', hknown', -, -, hsame, -⟩ known'' hknown''
    obtain rfl := Option.some.inj (hknown.symm.trans hknown')
    obtain rfl := Option.some.inj (hknown.symm.trans hknown'')
    refine ⟨hsame.scope, hsame.expiresAt, hsame.incarnation.symm.trans hincarnation, ?_⟩
    rw [← hsame.generation, ← hsame.scope, hgeneration]
  · intro hunaltered
    obtain ⟨hscope, hexpires, hstill, hcurrent⟩ := hunaltered known hknown
    refine ⟨known, hknown, htraced.issued t.id known hknown, hlive, ?_, ?_⟩
    · refine ⟨(Table.key_of_find? hknown).symm, hscope, ?_, ?_, ?_, hexpires⟩
      · rw [hgeneration, hcurrent, hscope]
      · rw [hepoch, htraced.live t.id known hknown hlive]
      · rw [hincarnation, hstill]
    · rw [← hexpiry, AuthorityToken.expiredAt, AuthorityToken.expiredAt, hexpires]

/-- A token that is presented as it was issued. -/
theorem presentation_pinned_iff_genuine :
    Pinned [.installIncarnation 1, .issue "d1" 0 10]
        { id := 1, scope := "d1", epoch := 1, incarnation := 1, expiresAt := 10 } 5 ↔
      Unaltered (after [.installIncarnation 1, .issue "d1" 0 10])
        { id := 1, scope := "d1", epoch := 1, incarnation := 1, expiresAt := 10 } :=
  presentation_pinned_iff _ _ _ (by decide +kernel)

/-- A token for one domain that expires at 10; at 100 it is accepted, presented as one for
all domains that does not expire. -/
theorem presentation_forged :
    (after [.installIncarnation 1, .issue "d1" 0 10]).validate
        { id := 1, epoch := 1, incarnation := 1 } 100 = .ok () ∧
      ((after [.installIncarnation 1, .issue "d1" 0 10]).find 1).map
          (fun known => (known.scope, known.expiresAt, known.expiredAt 100)) =
        some ("d1", 10, true) := by
  decide +kernel

end DrainFabric
