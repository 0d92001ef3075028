import DrainFabric.Engine.Closing
import DrainFabric.Properties.Atomicity

/-!
# The scope of a token

A token is issued for one failure domain, or for the whole cluster when its scope is
empty. The operations that present a token look it up and validate it, and none of them
compares its scope with what the operation is directed at. What confines an operation
is only what it is directed at: beyond those targets it changes nothing
(`ActsOnAims.beyond`), and where it is accepted and not a repetition it changes
something for each of them (`ActsOnAims.effect`).

* `scope_confinement_iff` — an accepted operation stays within the scope of its token
  exactly when its targets do or it is a repetition;
* `scope_exceeded` — a token of one domain drains a port of another.
-/

namespace DrainFabric

open Lib World Engine AdmissionFence

variable {r : DrainRecord} {targets : List DrainTarget}

/-- The token an operation presents. -/
def Call.presents : Call → Option AuthorityId
  | admitObligation _ _ authority _ | cancelDrain _ authority _ _ | restoreDrain _ authority _ _
  | resumeDrain _ authority _ | grantException _ _ _ authority _ => some authority
  | requestDrainSet request _ | requestDrain request _ => some request.authority
  | _ => none

namespace World

/-- The operation presents a token issued for the domain. -/
def PresentsScope (w : World) (c : Call) (domain : DomainId) : Prop :=
  domain ≠ "" ∧ ∃ authority token, c.presents = some authority ∧
    w.authority.find authority = some token ∧ token.scope = domain

/-- The targets an operation is directed at. -/
def aims (w : World) : Call → List DrainTarget
  | .requestDrainSet request _ | .requestDrain request _ => request.targets
  | .cancelDrain id _ _ _ | .restoreDrain id _ _ _ | .resumeDrain id _ _
  | .grantException id _ _ _ _ => (w.drain id).toList.map DrainRecord.target
  | .admitObligation draft _ _ _ => draft.dependencies.val
  | _ => []

/-- The operation repeats one that was carried out: a used nonce, a drain that is
already cancelled, being restored or restored. -/
def Repeats (w : World) : Call → Prop
  | .requestDrainSet request _ | .requestDrain request _ =>
    request.nonce ≠ 0 ∧ (OrdMap.get? w.nonceSets request.nonce).isSome = true
  | .cancelDrain id _ _ _ => ∃ r, w.drain id = some r ∧ r.state = .cancelled
  | .restoreDrain id _ _ _ => ∃ r, w.drain id = some r ∧
      (r.state = .restoring ∨ r.state = .cancelled ∧ r.restoredAt ≠ 0)
  | _ => False

/-- Nothing has changed for the target: its drains and the exceptions granted to them,
its fence, the obligations on it, the sets it is in and the resource. -/
structure Untouched (target : DrainTarget) (w w' : World) : Prop where
  drains : ∀ id r, r.target = target → (w'.drain id = some r ↔ w.drain id = some r)
  exceptions : ∀ id r, w.drain id = some r → r.target = target →
    OrdMap.get? w'.exceptions id = OrdMap.get? w.exceptions id
  fence : w'.fence.entry target = w.fence.entry target
  obligations : ∀ id o, target ∈ o.dependencies →
    (w'.obligations.find id = some o ↔ w.obligations.find id = some o)
  sets : ∀ id s, target ∈ s.targets → (w'.sets.find? id = some s ↔ w.sets.find? id = some s)
  resource : w'.topology.resource target.id = w.topology.resource target.id

end World

/-- The operation is accepted. -/
def Engine.accepts (e : Engine) : Call → Bool
  | .admitObligation draft presented authority now =>
    (e.admitObligation draft presented authority now).2.isOk
  | .requestDrainSet request now => (e.requestDrainSet request now).2.isOk
  | .requestDrain request now => (e.requestDrain request now).2.isOk
  | .cancelDrain id authority reason now => (e.cancelDrain id authority reason now).2.isOk
  | .restoreDrain id authority reason now => (e.restoreDrain id authority reason now).2.isOk
  | .resumeDrain id authority now => (e.resumeDrain id authority now).2.isOk
  | .grantException id obligation extension authority now =>
    (e.grantException id obligation extension authority now).2.isOk
  | _ => false

/-- The operation changes nothing for a target of another domain. -/
def Engine.ConfinedTo (e : Engine) (domain : DomainId) (c : Call) : Prop :=
  ∀ target : DrainTarget, target.domain ≠ domain → Untouched target e.toWorld (e.apply c).toWorld

/-! ### Single writes -/

namespace World

section

variable {w w' : World} {target : DrainTarget}

theorem Untouched.refl (target : DrainTarget) (w : World) : Untouched target w w :=
  ⟨fun _ _ _ => Iff.rfl, fun _ _ _ _ => rfl, rfl, fun _ _ _ => Iff.rfl, fun _ _ _ => Iff.rfl, rfl⟩

theorem Untouched.trans {w₁ w₂ : World} (h : Untouched target w w₁) (h' : Untouched target w₁ w₂) :
    Untouched target w w₂ where
  drains := fun id r hr => (h'.drains id r hr).trans (h.drains id r hr)
  exceptions := fun id r hr htarget =>
    (h'.exceptions id r ((h.drains id r htarget).mpr hr) htarget).trans
      (h.exceptions id r hr htarget)
  fence := h'.fence.trans h.fence
  obligations := fun id o ho => (h'.obligations id o ho).trans (h.obligations id o ho)
  sets := fun id s hs => (h'.sets id s hs).trans (h.sets id s hs)
  resource := h'.resource.trans h.resource

theorem untouched_withDrain {r' : DrainRecord} (hr : w.drain r.id = some r) (hid : r'.id = r.id)
    (htarget : r'.target = r.target) (hne : r.target ≠ target) :
    Untouched target w (w.withDrain r') := by
  refine { Untouched.refl target w with drains := fun id q hq => ?_ }
  rw [drain_withDrain, hid]
  split_ifs with h
  · subst h
    rw [hr, Option.some.injEq, Option.some.injEq]
    refine ⟨fun heq => ?_, fun heq => ?_⟩
    · rw [← heq, htarget] at hq
      exact absurd hq hne
    · rw [← heq] at hq
      exact absurd hq hne
  · exact Iff.rfl

theorem untouched_withFence {fence : AdmissionFence}
    (h : fence.entry target = w.fence.entry target) : Untouched target w (w.withFence fence) :=
  { Untouched.refl target w with fence := h }

theorem untouched_withExceptions (hr : w.drain r.id = some r) (hne : r.target ≠ target)
    (grants : List ExceptionGrant) (sequence : Nat) :
    Untouched target w { w with
      exceptionHighWater := sequence, exceptions := OrdMap.set w.exceptions r.id grants } := by
  refine { Untouched.refl target w with exceptions := fun id q hq hq' => ?_ }
  refine OrdMap.get?_set_of_ne ?_
  rintro rfl
  rw [hr] at hq
  exact hne ((congrArg DrainRecord.target (Option.some.inj hq)).trans hq')

theorem untouched_withObligations {obligations : ObligationTable}
    (h : ∀ id o, target ∈ o.dependencies →
      (obligations.find id = some o ↔ w.obligations.find id = some o)) :
    Untouched target w (w.withObligations obligations) :=
  { Untouched.refl target w with obligations := h }

theorem untouched_withDrains (request : DrainRequest) (now : TimePoint) (hne : target ∉ targets) :
    Untouched target w (w.withDrains request targets now) := by
  have hdrain : ∀ id r, r.target = target →
      ((w.withDrains request targets now).drain id = some r ↔ w.drain id = some r) := by
    intro id r hr
    refine ⟨fun h => ?_, fun h => ?_⟩
    · rcases drain_withDrains_cases h with hold | ⟨hnew, -⟩
      · exact hold
      · exact absurd (hr ▸ (mem_newDrains hnew).2.2.1) hne
    · rw [drain_withDrains, h, Option.some_or]
  exact { Untouched.refl target w with drains := hdrain }

theorem untouched_withSet {set : DrainSet} (hne : target ∉ set.targets) :
    Untouched target w (w.withSet set) := by
  refine { Untouched.refl target w with sets := fun id s hs => ?_ }
  rw [find?_withSet]
  cases w.sets.find? id with
  | some old => rw [Option.some_or]
  | none =>
    rw [Option.none_or]
    split_ifs
    · simp only [Option.some.injEq, iff_false]
      rintro rfl
      exact hne hs
    · exact Iff.rfl

/-- Storing a drain of the target in another state is a change for it. -/
theorem touched_withDrain {r' : DrainRecord} (hr : w.drain r.id = some r) (hid : r'.id = r.id)
    (hne : r'.state ≠ r.state) : ¬ Untouched r.target w (w'.withDrain r') := by
  intro h
  have hkept := (h.drains r.id r rfl).mpr hr
  rw [drain_withDrain, if_pos hid, Option.some.injEq] at hkept
  exact hne (congrArg DrainRecord.state hkept)

end

end World

/-! ### The operations -/

namespace Engine

/-- The operation changes something exactly for what it is directed at. -/
structure ActsOnAims (e : Engine) (c : Call) : Prop where
  beyond : ∀ target, target ∉ e.aims c → Untouched target e.toWorld (e.apply c).toWorld
  effect : e.accepts c = true → ¬ e.Repeats c →
    ∀ target ∈ e.aims c, ¬ Untouched target e.toWorld (e.apply c).toWorld
  repetition : e.Repeats c → (e.apply c).toWorld = e.toWorld

section

variable {e : Engine} {c : Call}

theorem actsOnAims_of_same (hsame : (e.apply c).toWorld = e.toWorld)
    (hrepeats : e.accepts c = true → e.Repeats c) : e.ActsOnAims c where
  beyond := fun target _ => hsame ▸ .refl target e.toWorld
  effect := fun haccepted hnot => absurd (hrepeats haccepted) hnot
  repetition := fun _ => hsame

theorem actsOnAims_of_refused (hsame : (e.apply c).toWorld = e.toWorld)
    (hrefused : e.accepts c = false) : e.ActsOnAims c :=
  actsOnAims_of_same hsame (fun haccepted => by
    rw [hrefused] at haccepted
    cases haccepted)

/-- An operation on one drain. -/
theorem actsOnAims_of_drain {w : World} (hr : e.drain r.id = some r)
    (haims : e.aims c = (e.drain r.id).toList.map DrainRecord.target)
    (hworld : (e.apply c).toWorld = w)
    (hbeyond : ∀ target, r.target ≠ target → Untouched target e.toWorld w)
    (heffect : e.accepts c = true → ¬ Untouched r.target e.toWorld w) (hnot : ¬ e.Repeats c) :
    e.ActsOnAims c where
  beyond := fun target htarget => by
    rw [haims, hr] at htarget
    exact hworld ▸ hbeyond target (fun heq => htarget (heq ▸ List.mem_singleton_self _))
  effect := fun haccepted _ target htarget => by
    rw [haims, hr] at htarget
    obtain rfl := List.mem_singleton.mp htarget
    exact hworld ▸ heffect haccepted
  repetition := fun hrepeats => absurd hrepeats hnot

end

theorem actsOnAims_cancelDrain (e : Engine) (id : DrainId) (authority : AuthorityId)
    (reason : String) (now : TimePoint) : e.ActsOnAims (.cancelDrain id authority reason now) := by
  rcases cancelDrain_cases e id authority reason now with ⟨hsame, hrepeats⟩ |
    ⟨r, hr, -, hs, hworld⟩
  · exact actsOnAims_of_same hsame hrepeats
  · obtain rfl := id_of_drain hr
    refine actsOnAims_of_drain hr rfl hworld (fun target hne => ?_) (fun _ => ?_) ?_
    · exact untouched_withDrain hr rfl rfl hne
    · exact touched_withDrain hr rfl (Ne.symm hs)
    · rintro ⟨q, hq, hcancelled⟩
      obtain rfl := Option.some.inj (hr.symm.trans hq)
      exact hs hcancelled

theorem actsOnAims_resumeDrain {e : Engine} (inv : Fenced e.toWorld) (id : DrainId)
    (authority : AuthorityId) (now : TimePoint) : e.ActsOnAims (.resumeDrain id authority now) := by
  rcases resumeDrain_cases e id authority now with
    ⟨hsame, hrejected⟩ | ⟨r, r', hr, hb, held, hworld, hmoved⟩
  · exact actsOnAims_of_refused hsame hrejected
  · obtain rfl := id_of_drain hr
    refine actsOnAims_of_drain hr rfl hworld (fun target hne => ?_) (fun haccepted => ?_) id
    · exact untouched_withDrain hr held.hold.id held.hold.target hne
    · rcases DrainRecord.transition_ok (hmoved haccepted) with ⟨hsame, -⟩ | ⟨hne, -, -, rfl⟩
      · exact absurd (hsame.trans hb) (inv.shape r.id r hr).2.1
      · exact touched_withDrain hr rfl hne

theorem actsOnAims_restoreDrain (e : Engine) (id : DrainId) (authority : AuthorityId)
    (reason : String) (now : TimePoint) : e.ActsOnAims (.restoreDrain id authority reason now) := by
  by_cases hres : ∃ r, e.toWorld.Restorable id authority now r
  · obtain ⟨r, hres⟩ := hres
    have hr := hres.found
    obtain rfl := id_of_drain hr
    have hnot : ¬ e.Repeats (.restoreDrain r.id authority reason now) := by
      rintro ⟨q, hq, hstate⟩
      obtain rfl := Option.some.inj (hr.symm.trans hq)
      rcases hstate with hrestoring | hrestored
      · exact not_restoring_of_settled hres.settled hrestoring
      · exact hres.unrestored hrestored
    rcases hreopen : reopenFence e.fence r reason now with ⟨fence, result⟩
    have hfence : ∀ target, r.target ≠ target → Untouched target e.toWorld (e.withFence fence) :=
      fun target hne => untouched_withFence (entry_reopenFence hreopen hne)
    have hcases := restoreDrain_of_restorable hres hreopen
    cases result with
    | error err =>
      have hworld : (e.apply (.restoreDrain r.id authority reason now)).toWorld =
          e.withFence fence := by
        rw [apply, hcases]
        rfl
      refine actsOnAims_of_drain hr rfl hworld hfence (fun haccepted => ?_) hnot
      rw [accepts, hcases] at haccepted
      cases haccepted
    | ok generation =>
      rcases hcases with ⟨-, hworld, err, herr⟩ | ⟨-, hworld, -⟩
      · refine actsOnAims_of_drain hr rfl hworld hfence (fun haccepted => ?_) hnot
        rw [accepts, herr] at haccepted
        cases haccepted
      · have hsettled : DrainState.restoring ≠ r.state :=
          Ne.symm (not_restoring_of_settled hres.settled)
        refine actsOnAims_of_drain hr rfl hworld (fun target hne => ?_) (fun _ => ?_) hnot
        · exact (hfence target hne).trans (untouched_withDrain hr rfl rfl hne)
        · exact touched_withDrain hr rfl hsettled
  · obtain ⟨hsame, hresult⟩ := restoreDrain_of_not_restorable reason hres
    have hworld : (e.apply (.restoreDrain id authority reason now)).toWorld = e.toWorld :=
      congrArg Engine.toWorld hsame
    rcases hresult with ⟨err, herr⟩ | ⟨-, hrepeats⟩
    · exact actsOnAims_of_refused hworld (by rw [accepts, herr]; rfl)
    · exact actsOnAims_of_same hworld (fun _ => hrepeats)

/-- Appending a grant changes what is found for the drain. -/
theorem get?_withGrant_ne (w : World) (grant : ExceptionGrant) :
    OrdMap.get? (w.withGrant grant).exceptions grant.drain ≠
      OrdMap.get? w.exceptions grant.drain := by
  rw [withGrant, OrdMap.get?_set_self]
  cases OrdMap.get? w.exceptions grant.drain with
  | none => simp
  | some grants => simp

theorem actsOnAims_grantException (e : Engine) (id : DrainId) (obligation : ObligationId)
    (extension : Duration) (authority : AuthorityId) (now : TimePoint) :
    e.ActsOnAims (.grantException id obligation extension authority now) := by
  rcases grantException_cases e id obligation extension authority now with
    ⟨hsame, hrefused⟩ | ⟨r, hr, -, ⟨hworld, hrefused⟩ | ⟨sequence, -, -, -, hworld⟩⟩
  · exact actsOnAims_of_refused hsame.toWorld hrefused
  · obtain rfl := id_of_drain hr
    refine actsOnAims_of_drain hr rfl hworld.toWorld (fun target hne => ?_) (fun haccepted => ?_) id
    · exact untouched_withExceptions hr hne _ e.exceptionHighWater
    · rw [accepts, hrefused] at haccepted
      cases haccepted
  · obtain rfl := id_of_drain hr
    refine actsOnAims_of_drain hr rfl hworld.toWorld (fun target hne => ?_) (fun _ htouched => ?_) id
    · exact (untouched_withExceptions hr hne _ sequence).trans
        (untouched_withDrain hr rfl rfl hne)
    · exact get?_withGrant_ne _ _ (htouched.exceptions r.id r hr rfl)

theorem actsOnAims_admitObligation (e : Engine) (draft : Obligation) (presented : Generation)
    (authority : AuthorityId) (now : TimePoint) :
    e.ActsOnAims (.admitObligation draft presented authority now) := by
  rcases admitObligation_cases e draft presented authority now with
    ⟨hnoted, hrefused⟩ | ⟨-, -, -, hnoted, hresult⟩
  · exact actsOnAims_of_refused hnoted.toWorld hrefused
  · have hworld := hnoted.toWorld
    rcases hins : e.obligations.insert
      { draft with admittedAt := now, admissionGeneration := presented } with ⟨obligations, err | o⟩
    · rw [hins] at hworld hresult
      refine ⟨fun target _ => ?_, fun haccepted => ?_, fun h => h.elim⟩
      · exact hworld ▸ untouched_withObligations (fun id o _ => by
          rw [ObligationTable.find, ObligationTable.insert_error hins]
          rfl)
      · rw [accepts, hresult] at haccepted
        cases haccepted
    · rw [hins] at hworld
      obtain ⟨hfree, hdraft, -, rfl⟩ := ObligationTable.insert_ok hins
      have hdeps : ∀ target : DrainTarget, target ∈ o.dependencies ↔
          target ∈ e.aims (.admitObligation draft presented authority now) := fun target => by
        rw [hdraft]
        rfl
      have hfind : ∀ id, ObligationTable.find
          { e.obligations.store o with highWater := e.obligations.highWater + 1 } id =
          if o.id = id then some o else e.obligations.find id :=
        ObligationTable.find_store e.obligations o
      refine ⟨fun target htarget => ?_, fun _ _ target htarget htouched => ?_, fun h => h.elim⟩
      · refine hworld ▸ untouched_withObligations (fun id q hq => ?_)
        dsimp only
        rw [hfind]
        split_ifs with hid
        · subst hid
          rw [hfree]
          simp only [Option.some.injEq, reduceCtorEq, iff_false]
          rintro rfl
          exact htarget ((hdeps target).mp hq)
        · exact Iff.rfl
      · rw [apply, hworld] at htouched
        have hfound := (htouched.obligations o.id o ((hdeps target).mpr htarget)).mp
          ((hfind o.id).trans (if_pos rfl))
        rw [hfree] at hfound
        cases hfound

/-- A new drain for the target is a change for it. -/
theorem touched_withDrains {w w' : World} (hfiled : Filed w) {request : DrainRequest}
    {now : TimePoint} {target : DrainTarget} (h : target ∈ targets)
    (hdrains : w'.drains = (w.withDrains request targets now).drains) :
    ¬ Untouched target w w' := by
  intro htouched
  obtain ⟨r, hr, rfl⟩ := exists_mem_newDrains request (w.setHighWater + 1) now w.drainHighWater h
  -- The new drain of the target has a number no drain had before.
  have hfree : w.drain r.id = none := by
    refine Option.eq_none_iff_forall_ne_some.mpr (fun q hq => ?_)
    exact Nat.not_le.mpr (mem_newDrains hr).1 (hfiled.number r.id q hq).2
  have hnew : w'.drain r.id = some r := by
    rw [World.drain, hdrains]
    exact drain_withDrains_new hr hfree
  have hfound := (htouched.drains r.id r rfl).mp hnew
  rw [hfree] at hfound
  cases hfound

theorem actsOnAims_request {e : Engine} {c : Call} {request : DrainRequest} {now : TimePoint}
    (hfiled : Filed e.toWorld) (haims : e.aims c = request.targets)
    (hworld : (e.apply c).toWorld = (e.requestDrainSet request now).1.toWorld)
    (haccepts : e.accepts c = true → ∃ setId, (e.requestDrainSet request now).2 = .ok setId)
    (hrepeats : e.Repeats c ↔
      request.nonce ≠ 0 ∧ (OrdMap.get? e.nonceSets request.nonce).isSome = true) :
    e.ActsOnAims c := by
  rcases requestDrainSet_cases e request now with ⟨hsame, hreplay, -⟩ | ⟨targets, hadm⟩
  · refine actsOnAims_of_same (hworld.trans hsame) (fun haccepted => ?_)
    obtain ⟨setId, hok⟩ := haccepts haccepted
    obtain ⟨hused, hnonce, -⟩ := hreplay setId hok
    exact hrepeats.mpr ⟨hused, by rw [hnonce]; rfl⟩
  rw [requestDrainSet_of_admissible hadm] at hworld haccepts
  have hmem := (normalizeTargets_ok hadm.normalized).2
  have hnot : ¬ e.Repeats c := by
    rw [hrepeats]
    rintro ⟨hused, hsome⟩
    have hunused := hadm.unused
    rw [if_neg hused] at hunused
    rw [hunused] at hsome
    cases hsome
  refine ⟨fun target htarget => ?_, fun haccepted _ target htarget => ?_, fun h => absurd h hnot⟩
  · rw [haims, ← hmem] at htarget
    rw [hworld]
    rcases createDrainSet_cases hadm with
      ⟨-, hsame, -⟩ | ⟨-, -, ⟨made, rest, rfl, -, hmade⟩, -⟩ | ⟨-, -, hmade, -⟩
    · rw [hsame]
      exact .refl target e.toWorld
    · rw [hmade]
      exact untouched_withDrains request now (fun h => htarget (List.mem_append_left rest h))
    · rw [hmade]
      exact (untouched_withDrains request now htarget).trans (untouched_withSet htarget)
  · rw [haims, ← hmem] at htarget
    obtain ⟨setId, hok⟩ := haccepts haccepted
    rcases createDrainSet_cases hadm with ⟨-, -, err, herr⟩ | ⟨-, -, -, err, herr⟩ | ⟨-, -, hmade, -⟩
    · rw [herr] at hok
      cases hok
    · rw [herr] at hok
      cases hok
    · rw [hworld, hmade]
      exact touched_withDrains hfiled htarget rfl

/-- Every operation that presents a token acts on what it is directed at. -/
theorem actsOnAims {C : Engine → Event → Prop} {e : Engine} (he : Reachable C e) {c : Call}
    {authority : AuthorityId} (hc : c.presents = some authority) : e.ActsOnAims c := by
  cases c with
  | admitObligation draft presented authority now =>
    exact actsOnAims_admitObligation e draft presented authority now
  | requestDrainSet request now =>
    exact actsOnAims_request he.filed rfl rfl exists_of_isOk Iff.rfl
  | requestDrain request now =>
    obtain ⟨hengine, hok⟩ := requestDrain_fst e request now
    exact actsOnAims_request he.filed rfl (congrArg Engine.toWorld hengine) hok Iff.rfl
  | cancelDrain id authority reason now => exact actsOnAims_cancelDrain e id authority reason now
  | restoreDrain id authority reason now => exact actsOnAims_restoreDrain e id authority reason now
  | resumeDrain id authority now => exact actsOnAims_resumeDrain he.fenced id authority now
  | grantException id obligation extension authority now =>
    exact actsOnAims_grantException e id obligation extension authority now
  | _ => cases hc

end Engine

/-- In every reachable state, for every operation that presents a token issued for a
domain: directed at targets of the domain only it is confined to it, and when it is
accepted it is confined to it exactly if it is directed at targets of the domain only or
repeats an operation that was carried out. -/
theorem scope_confinement_iff {C : Engine → Event → Prop} {e : Engine} (he : Reachable C e)
    {c : Call} {domain : DomainId} (hc : e.PresentsScope c domain) :
    ((∀ target ∈ e.aims c, target.domain = domain) → e.ConfinedTo domain c) ∧
      (e.accepts c = true → (e.ConfinedTo domain c ↔
        (∀ target ∈ e.aims c, target.domain = domain) ∨ e.Repeats c)) := by
  obtain ⟨-, authority, token, hpresents, -, -⟩ := hc
  have hacts := actsOnAims he hpresents
  have hwithin : (∀ target ∈ e.aims c, target.domain = domain) → e.ConfinedTo domain c := by
    intro hall target hne
    exact hacts.beyond target (fun hmem => hne (hall target hmem))
  refine ⟨hwithin, fun haccepted => ⟨fun hconfined => ?_, ?_⟩⟩
  · by_cases hrepeats : e.Repeats c
    · exact Or.inr hrepeats
    · refine Or.inl (fun target htarget => ?_)
      by_contra hne
      exact hacts.effect haccepted hrepeats target htarget (hconfined target hne)
  · rintro (hall | hrepeats)
    · exact hwithin hall
    · intro target _
      rw [hacts.repetition hrepeats]
      exact .refl target e.toWorld

namespace OnePort

/-- The port, of domain `d1`, and a token issued for the domain. -/
def tokenFor (domain : DomainId) : Engine :=
  run perform (Engine.init {})
    [.call (.installIncarnation 1 1), .call (.issueAuthority domain 0 1),
      .call (.addResource { target := port, capacity := 10 } 1)]

/-- The request to drain the port with the token. -/
def drainPort : Call := .requestDrain { targets := [port], authority := 1 } 1

theorem presentsScope_drainPort {domain : DomainId} (hne : domain ≠ "")
    (htoken : ((tokenFor domain).authority.find 1).map AuthorityToken.scope = some domain) :
    (tokenFor domain).PresentsScope drainPort domain := by
  obtain ⟨token, hfind, hscope⟩ := Option.map_eq_some_iff.mp htoken
  exact ⟨hne, 1, token, rfl, hfind, hscope⟩

end OnePort

/-- With a token of its own domain the port is drained, and nothing else is changed. -/
theorem scope_confinement_iff_onePort :
    (OnePort.tokenFor "d1").accepts OnePort.drainPort = true ∧
      (OnePort.tokenFor "d1").ConfinedTo "d1" OnePort.drainPort := by
  refine ⟨by decide +kernel, ?_⟩
  have hreach : Reachable (fun _ _ => True) (OnePort.tokenFor "d1") :=
    reachable_run (.init {}) (by decide +kernel)
  have hpresents : (OnePort.tokenFor "d1").PresentsScope OnePort.drainPort "d1" :=
    OnePort.presentsScope_drainPort (by decide) (by decide +kernel)
  exact (scope_confinement_iff hreach hpresents).1 (by decide +kernel)

/-- A token issued for the domain `d2` drains the port of the domain `d1`. -/
theorem scope_exceeded :
    (OnePort.tokenFor "d2").PresentsScope OnePort.drainPort "d2" ∧
      (OnePort.tokenFor "d2").accepts OnePort.drainPort = true ∧
      OnePort.port.domain = "d1" ∧
      (OnePort.tokenFor "d2").drain 1 = none ∧
      (((OnePort.tokenFor "d2").apply OnePort.drainPort).drain 1).map DrainRecord.target =
        some OnePort.port := by
  refine ⟨OnePort.presentsScope_drainPort (by decide) (by decide +kernel), ?_⟩
  decide +kernel

end DrainFabric
