import DrainFabric.Engine.Views

/-!
# What an event means for one drain

`DrainStep` describes a whole event; `Fate` describes it for a single drain and the
fence of its target. All drains but the one that acts share one case, `keeps`: they
stand where they stood, and no other drain can open, close or take over a fence
they hold.

* `close_keeps`, `reopenFence_keeps` — the fence operations of one drain leave the
  closures of every other alone;
* `DrainStep.fate` — every drain after an event met one of the cases of `Fate`;
* `Fenced` — the invariants that need no assumption on the run: a drain between
  `AdmissionClosed` and `Verifying` holds its fence under its own generation, and a
  restoring drain does not hold it any more.
-/

namespace DrainFabric

open Lib

variable {f f' : AdmissionFence} {id id' : DrainId} {other : DrainTarget} {at_ now : TimePoint}
  {reason : String} {result : Result Generation} {r r' : DrainRecord} {w w' : World} {ev : Event}
  {o' : Obligation}

namespace AdmissionFence

/-- What both readings of a closure depend on. -/
structure Same (f f' : AdmissionFence) (target : DrainTarget) (id : DrainId) : Prop where
  held : ∀ generation, f.HeldBy target id generation → f'.HeldBy target id generation
  closed : f'.ClosedBy target id → f.ClosedBy target id

theorem Same.of_entry {target : DrainTarget} (h : f'.entry target = f.entry target) (id : DrainId) :
    Same f f' target id where
  held := fun _ ⟨e, he, hrest⟩ => ⟨e, h.trans he, hrest⟩
  closed := fun ⟨e, he, hrest⟩ => ⟨e, h.symm.trans he, hrest⟩

theorem Same.of_fence_eq (h : f' = f) (target : DrainTarget) (id : DrainId) : Same f f' target id :=
  .of_entry (by rw [h]) id

theorem Same.trans {f'' : AdmissionFence} {target : DrainTarget} (h : Same f f' target id)
    (h' : Same f' f'' target id) : Same f f'' target id where
  held := fun generation hg => h'.held generation (h.held generation hg)
  closed := fun hc => h.closed (h'.closed hc)

/-- A closure that both fences agree on is an old one. -/
theorem Same.heldBy {target : DrainTarget} {generation : Generation} (h : Same f f' target id)
    (hheld : f'.HeldBy target id generation) : f.HeldBy target id generation := by
  obtain ⟨before, hbefore, hclosed, hdrain⟩ := h.closed hheld.closedBy
  obtain ⟨entry, hentry, -, -, rfl⟩ := hheld
  obtain ⟨after, hafter, -, -, hgen⟩ := h.held _ ⟨before, hbefore, hclosed, hdrain, rfl⟩
  obtain rfl := Option.some.inj (hentry.symm.trans hafter)
  exact ⟨before, hbefore, hclosed, hdrain, hgen.symm⟩

/-- The closure of one drain leaves those of the others alone, if it found the fence
open or its own. -/
theorem close_keeps {target : DrainTarget} (hclose : f.close target id at_ reason = (f', result))
    (hheld : ∀ e, f.entry target = some e → e.closed = true → e.drain = id) (hne : id' ≠ id) :
    Same f f' other id' := by
  by_cases hother : other = target
  · subst hother
    -- Nobody else held this fence before, and nobody else holds it now.
    have hbefore : ¬ f.ClosedBy other id' := by
      rintro ⟨e, he, hclosed, rfl⟩
      exact hne (hheld e he hclosed)
    refine ⟨fun _ h => absurd h.closedBy hbefore, ?_⟩
    rintro ⟨e, he, hclosed, rfl⟩
    cases result with
    | ok next =>
      obtain ⟨-, -, ⟨e', he', -, hdrain, -⟩, -⟩ := close_ok hclose
      rw [he] at he'
      obtain rfl := Option.some.inj he'
      exact absurd hdrain hne
    | error err =>
      rcases close_error hclose with rfl | ⟨hnone, -⟩
      · exact ⟨e, he, hclosed, rfl⟩
      · rw [hnone] at he
        cases he
  · refine .of_entry ?_ id'
    cases result with
    | ok next =>
      obtain ⟨-, -, -, hothers⟩ := close_ok hclose
      exact hothers other hother
    | error err =>
      rcases close_error hclose with rfl | ⟨-, hothers⟩
      · rfl
      · exact hothers other hother

/-- The reopening of a fence leaves the closures of other drains alone, if the fence
was the drain's own. -/
theorem reopen_keeps {target : DrainTarget} {next : Generation}
    (hreopen : f.reopen target id at_ reason = .ok (f', next))
    (hheld : ∀ e, f.entry target = some e → e.closed = true → e.drain = id) (hne : id' ≠ id) :
    Same f f' other id' := by
  obtain ⟨before, after, hbefore, hclosed, hafter, hopen, -, -, -, hothers⟩ := reopen_ok hreopen
  by_cases hother : other = target
  · subst hother
    refine ⟨?_, ?_⟩
    · rintro generation ⟨e, he, hc, rfl, -⟩
      exact absurd (hheld e he hc) hne
    · rintro ⟨e, he, hc, -⟩
      rw [hafter] at he
      obtain rfl := Option.some.inj he
      rw [hopen] at hc
      cases hc
  · exact .of_entry (hothers other hother) id'

end AdmissionFence

namespace Engine

open AdmissionFence

/-- The two halves of a forced reopening. -/
theorem reopenFence_cases (h : reopenFence f r reason now = (f', result)) :
    (f' = f ∧ ((∃ err, result = .error err) ∨ f.isClosed r.target = false ∧
        r.generation < f.generation r.target ∧ result = .ok (f.generation r.target))) ∨
      (∃ next, result = .ok next ∧ f.reopen r.target r.id now (truncate reason) = .ok (f', next) ∧
        ∀ e, f.entry r.target = some e → e.closed = true → e.drain = r.id) ∨
      (f.isClosed r.target = false ∧ ∃ mid closed,
        f.close r.target r.id now "restoration generation advance" = (mid, closed) ∧
          ((f' = mid ∧ ∃ err, result = .error err) ∨
            ∃ between next, closed = .ok between ∧ result = .ok next ∧
              mid.reopen r.target r.id now (truncate reason) = .ok (f', next))) := by
  unfold reopenFence at h
  split_ifs at h with hclosed hgeneration
  · cases hother : (f.entry r.target).filter (fun entry => entry.drain != r.id) with
    | some entry =>
      simp only [hother, Prod.mk.injEq] at h
      exact Or.inl ⟨h.1.symm, Or.inl ⟨_, h.2.symm⟩⟩
    | none =>
      have hown : ∀ e, f.entry r.target = some e → e.closed = true → e.drain = r.id := by
        intro e he _
        rw [he] at hother
        by_contra hne
        simp [hne] at hother
      cases hreopen : f.reopen r.target r.id now (truncate reason) with
      | error err =>
        simp only [hother, hreopen, Prod.mk.injEq] at h
        exact Or.inl ⟨h.1.symm, Or.inl ⟨_, h.2.symm⟩⟩
      | ok pair =>
        simp only [hother, hreopen, Prod.mk.injEq] at h
        obtain ⟨rfl, rfl⟩ := h
        exact Or.inr (Or.inl ⟨pair.2, rfl, rfl, hown⟩)
  · rw [Bool.not_eq_true] at hclosed
    refine Or.inr (Or.inr ⟨hclosed, ?_⟩)
    rcases hclose : f.close r.target r.id now "restoration generation advance" with ⟨mid, err | g⟩
    · simp only [hclose, Prod.mk.injEq] at h
      exact ⟨mid, _, rfl, Or.inl ⟨h.1.symm, _, h.2.symm⟩⟩
    · cases hreopen : mid.reopen r.target r.id now (truncate reason) with
      | error err =>
        simp only [hclose, hreopen, Prod.mk.injEq] at h
        exact ⟨mid, _, rfl, Or.inl ⟨h.1.symm, _, h.2.symm⟩⟩
      | ok pair =>
        simp only [hclose, hreopen, Prod.mk.injEq] at h
        obtain ⟨rfl, rfl⟩ := h
        exact ⟨mid, _, rfl, Or.inr ⟨g, pair.2, rfl, rfl, hreopen⟩⟩
  · simp only [Prod.mk.injEq] at h
    rw [Bool.not_eq_true] at hclosed
    exact Or.inl ⟨h.1.symm, Or.inr ⟨hclosed, Nat.not_le.mp hgeneration, h.2.symm⟩⟩

/-- Restoring one drain leaves the closures of the others alone. -/
theorem reopenFence_keeps (h : reopenFence f r reason now = (f', result)) (hne : id ≠ r.id) :
    Same f f' other id := by
  have hfree : f.isClosed r.target = false →
      ∀ e, f.entry r.target = some e → e.closed = true → e.drain = r.id := by
    intro hopen e he hclosed
    have : f.isClosed r.target = true := isClosed_iff.mpr ⟨e, he, hclosed⟩
    rw [hopen] at this
    cases this
  rcases reopenFence_cases h with ⟨rfl, -⟩ | ⟨next, -, hreopen, hown⟩ |
    ⟨hopen, mid, closed, hclose, hrest⟩
  · exact .of_entry rfl id
  · exact reopen_keeps hreopen hown hne
  · have hmid : Same f mid other id := close_keeps hclose (hfree hopen) hne
    rcases hrest with ⟨rfl, -⟩ | ⟨between, next, rfl, -, hreopen⟩
    · exact hmid
    · refine hmid.trans (reopen_keeps hreopen ?_ hne)
      -- What is reopened is the closure that was just made.
      intro e he hclosed
      obtain ⟨-, -, ⟨e', he', -, hdrain, -⟩, -⟩ := close_ok hclose
      rw [he] at he'
      rwa [Option.some.inj he']

/-- After a restoration has reopened the fence it is open. -/
theorem reopenFence_open {reopened : Generation}
    (h : reopenFence f r reason now = (f', .ok reopened)) : f'.isClosed r.target = false := by
  have hreopened : ∀ (g : AdmissionFence) (next : Generation),
      g.reopen r.target r.id now (truncate reason) = .ok (f', next) →
      f'.isClosed r.target = false := by
    intro g next hreopen
    obtain ⟨-, after, -, -, hafter, hopen, -⟩ := reopen_ok hreopen
    simp [isClosed, hafter, hopen]
  rcases reopenFence_cases h with ⟨rfl, hopen⟩ | ⟨next, -, hreopen, -⟩ |
    ⟨-, mid, closed, -, hrest⟩
  · rcases hopen with ⟨err, herr⟩ | ⟨hopen, -⟩
    · cases herr
    · exact hopen
  · exact hreopened f next hreopen
  · rcases hrest with ⟨-, err, herr⟩ | ⟨-, next, -, -, hreopen⟩
    · cases herr
    · exact hreopened mid next hreopen

/-- A refused restoration leaves the drain's own closure alone. -/
theorem reopenFence_refused {err : Error} {generation : Generation}
    (h : reopenFence f r reason now = (f', .error err))
    (hheld : f.HeldBy r.target r.id generation) : f'.HeldBy r.target r.id generation := by
  rcases reopenFence_cases h with ⟨rfl, -⟩ | ⟨next, hok, -⟩ | ⟨hopen, -⟩
  · exact hheld
  · cases hok
  · obtain ⟨e, he, hclosed, -⟩ := hheld
    have : f.isClosed r.target = true := isClosed_iff.mpr ⟨e, he, hclosed⟩
    rw [hopen] at this
    cases this

end Engine

namespace World

open AdmissionFence

/-! ### The fate of a drain -/

/-- What a drain that does not act keeps, across restarts too. -/
structure Kept (r r' : DrainRecord) : Prop where
  target : r'.target = r.target
  generation : r'.generation = r.generation
  restoredAt : r'.restoredAt = r.restoredAt ∨ r'.restoredAt = persistedCount r.restoredAt
  phase : r'.phase = r.phase
  settled : isSettled r.state = true → r'.state = r.state
  drained : r'.state = .drained → r.state = .drained

theorem Kept.of_hold (h : Hold r r') : Kept r r' :=
  ⟨h.target, h.generation, Or.inl h.restoredAt, h.phase, h.settled, h.drained⟩

theorem Kept.of_restarted (h : Restarted r r') : Kept r r' := by
  refine ⟨h.target, h.generation, Or.inr h.restoredAt, h.phase, fun hs => ?_, fun hd => ?_⟩
  · rw [h.state]
    cases hstate : r.state <;> simp [hstate, isSettled, Engine.isTransient] at hs ⊢
  · rw [h.state] at hd
    split_ifs at hd
    exact hd

/-- A restoration time that a snapshot can represent is kept. -/
theorem Kept.restoredAt_eq (kept : Kept r r') (h : 0 ≤ r.restoredAt ∧ r.restoredAt ≤ i64Max) :
    r'.restoredAt = r.restoredAt := by
  rcases kept.restoredAt with heq | heq
  · exact heq
  · rw [heq, persistedCount_of_nonneg h.1 h.2]

/-- What an event means for the drain that is left with record `r'`. -/
inductive Fate (w : World) (id : DrainId) (r' : DrainRecord) (w' : World) : Event → Prop
  | born {c : Call} :
      w.drain id = none → r'.target ∈ c.targets → w.IsFree r'.target → r'.state = .requested →
      r'.generation = 0 → r'.restoredAt = 0 → Fate w id r' w' (.call c)
  | keeps {ev : Event} {r : DrainRecord} :
      w.drain id = some r → Kept r r' → Same w.fence w'.fence r.target id → Fate w id r' w' ev
  | moves {now : TimePoint} {r : DrainRecord} :
      w.drain id = some r → r'.target = r.target → Path r.phase r'.phase →
      r'.state = r'.phase → r'.generation = r.generation → r'.restoredAt = r.restoredAt →
      w'.fence = w.fence → Fate w id r' w' (.turn id now)
  | closes {now : TimePoint} {r : DrainRecord} :
      w.drain id = some r → r'.target = r.target → r.phase = .validating →
      w'.fence.HeldBy r.target id r'.generation → r'.restoredAt = r.restoredAt →
      (∃ node, w.topology.resource r.target.id = some node ∧ node.status = .inService) →
      (r'.state = .admissionClosed ∨ r'.phase = .validating ∧ r'.revision = u64Max) →
      Fate w id r' w' (.turn id now)
  /-- The closure failed; whatever the fence says, the drain is still validating. -/
  | retries {now : TimePoint} {r : DrainRecord} :
      w.drain id = some r → Hold r r' → r.phase = .validating → Fate w id r' w' (.turn id now)
  | settles {now : TimePoint} {r : DrainRecord} :
      w.drain id = some r → r'.target = r.target → r.phase = .restoring →
      r'.state = .cancelled → r'.generation = r.generation → r'.restoredAt = now →
      w'.fence = w.fence → Fate w id r' w' (.turn id now)
  | cancels {authority : AuthorityId} {reason : String} {now : TimePoint} {r : DrainRecord} :
      w.drain id = some r → r'.target = r.target → r.state ≠ .drained → r.state ≠ .cancelled →
      r'.state = .cancelled → r'.generation = r.generation → r'.restoredAt = r.restoredAt →
      w'.fence = w.fence → Fate w id r' w' (.call (.cancelDrain id authority reason now))
  | reopens {authority : AuthorityId} {reason : String} {now : TimePoint} {r : DrainRecord} :
      w.drain id = some r → r'.target = r.target → isSettled r.state = true →
      ¬ (r.state = .cancelled ∧ r.restoredAt ≠ 0) → r'.state = .restoring →
      r'.generation = r.generation → r'.restoredAt = r.restoredAt →
      w'.fence.isClosed r.target = false →
      Fate w id r' w' (.call (.restoreDrain id authority reason now))
  /-- The restoration was refused, or stopped at an exhausted revision. -/
  | refused {authority : AuthorityId} {reason : String} {now : TimePoint} :
      w.drain id = some r' → isSettled r'.state = true →
      ¬ (r'.state = .cancelled ∧ r'.restoredAt ≠ 0) →
      ((∀ generation, w.fence.HeldBy r'.target id generation →
        w'.fence.HeldBy r'.target id generation) ∨ r'.revision = u64Max) →
      Fate w id r' w' (.call (.restoreDrain id authority reason now))

theorem Fate.of_none (h : Fate w id r' w' ev) (hnone : w.drain id = none) :
    ∃ c, ev = .call c ∧ r'.target ∈ c.targets ∧ w.IsFree r'.target ∧ r'.state = .requested := by
  cases h with
  | born _ hmem hfree hs => exact ⟨_, rfl, hmem, hfree, hs⟩
  | keeps hr | moves hr | closes hr | retries hr | settles hr | cancels hr | reopens hr
  | refused hr => cases hnone.symm.trans hr

theorem Fate.target (h : Fate w id r' w' ev) (hr : w.drain id = some r) : r'.target = r.target := by
  have hsame : ∀ {q : DrainRecord}, w.drain id = some q → r'.target = q.target →
      r'.target = r.target := by
    intro q hq htarget
    rwa [Option.some.inj (hr.symm.trans hq)]
  cases h with
  | born hnone => cases hnone.symm.trans hr
  | keeps hq kept => exact hsame hq kept.target
  | moves hq htarget => exact hsame hq htarget
  | closes hq htarget => exact hsame hq htarget
  | retries hq hold => exact hsame hq hold.target
  | settles hq htarget => exact hsame hq htarget
  | cancels hq htarget => exact hsame hq htarget
  | reopens hq htarget => exact hsame hq htarget
  | refused hq => exact hsame hq rfl

/-- Only the closure of admission gives a drain a generation. -/
theorem Fate.generation (h : Fate w id r' w' ev) (hr : w.drain id = some r)
    (hphase : r.phase ≠ .validating) : r'.generation = r.generation := by
  have hsame : ∀ {q : DrainRecord}, w.drain id = some q → r'.generation = q.generation →
      r'.generation = r.generation := by
    intro q hq hgen
    rwa [Option.some.inj (hr.symm.trans hq)]
  cases h with
  | born hnone => cases hnone.symm.trans hr
  | keeps hq kept => exact hsame hq kept.generation
  | moves hq _ _ _ hgen => exact hsame hq hgen
  | closes hq _ hvalidating =>
    obtain rfl := Option.some.inj (hr.symm.trans hq)
    exact absurd hvalidating hphase
  | retries hq hold => exact hsame hq hold.generation
  | settles hq _ _ _ hgen => exact hsame hq hgen
  | cancels hq _ _ _ _ hgen => exact hsame hq hgen
  | reopens hq _ _ _ _ hgen => exact hsame hq hgen
  | refused hq => exact hsame hq rfl

theorem Fate.bystander (h : w.drain id = some r) (hsame : Same w.fence w'.fence r.target id) :
    Fate w id r w' ev :=
  .keeps h (.of_hold (.refl r)) hsame

/-- Persisting an entry keeps its closure. -/
theorem Recovered.same (h : Recovered w w') (target : DrainTarget) (id : DrainId) :
    Same w.fence w'.fence target id := by
  have hentry := entry_of_loaded h.fence target
  constructor
  · rintro generation ⟨e, he, hclosed, hdrain, hgen⟩
    exact ⟨e.persisted, by rw [hentry, he]; rfl, hclosed, hdrain, hgen⟩
  · rintro ⟨e', he', hclosed, hdrain⟩
    rw [hentry, Option.map_eq_some_iff] at he'
    obtain ⟨e, he, rfl⟩ := he'
    exact ⟨e, he, hclosed, hdrain⟩

/-- Every drain after an event met one of the fates. -/
theorem DrainStep.fate (h : DrainStep w ev w') {q : DrainRecord} (hq : w'.drain id = some q) :
    Fate w id q w' ev := by
  cases h with
  | stays hnone hkept hfence =>
    cases hw : w.drain id with
    | none =>
      rw [hnone id hw] at hq
      cases hq
    | some r =>
      obtain ⟨r', hold, hr'⟩ := hkept id r hw
      rw [hq] at hr'
      obtain rfl := Option.some.inj hr'
      exact .keeps hw (.of_hold hold) (.of_fence_eq hfence _ _)
  | moves hrw hpath hstate hgen hrestored hfence =>
    rcases hrw.cases hq with ⟨rfl, rfl⟩ | ⟨-, hw⟩
    · exact .moves hrw.before hrw.target hpath hstate hgen hrestored hfence
    · exact .bystander hw (.of_fence_eq hfence _ _)
  | closes hrw hphase hheld hservice hclose hrestored hstate =>
    rcases hrw.cases hq with ⟨rfl, rfl⟩ | ⟨hne, hw⟩
    · obtain ⟨-, -, hheldBy, -⟩ := close_ok hclose
      exact .closes hrw.before hrw.target hphase hheldBy hrestored hservice hstate
    · exact .bystander hw (close_keeps hclose hheld hne)
  | closeFails hrw hold hphase hheld hclose =>
    rcases hrw.cases hq with ⟨rfl, rfl⟩ | ⟨hne, hw⟩
    · exact .retries hrw.before hold hphase
    · exact .bystander hw (close_keeps hclose hheld hne)
  | settles hrw hphase hstate hgen hrestored hfence =>
    rcases hrw.cases hq with ⟨rfl, rfl⟩ | ⟨-, hw⟩
    · exact .settles hrw.before hrw.target hphase hstate hgen hrestored hfence
    · exact .bystander hw (.of_fence_eq hfence _ _)
  | cancels hrw hdrained hcancelled hstate hgen hrestored hfence =>
    rcases hrw.cases hq with ⟨rfl, rfl⟩ | ⟨-, hw⟩
    · exact .cancels hrw.before hrw.target hdrained hcancelled hstate hgen hrestored hfence
    · exact .bystander hw (.of_fence_eq hfence _ _)
  | reopens hrw hsettled hdone hreopen hstate hgen hrestored =>
    rcases hrw.cases hq with ⟨rfl, rfl⟩ | ⟨hne, hw⟩
    · exact .reopens hrw.before hrw.target hsettled hdone hstate hgen hrestored
        (Engine.reopenFence_open hreopen)
    · exact .bystander hw (Engine.reopenFence_keeps hreopen hne)
  | @reopenFails _ _ _ r _ _ hr hsettled hdone hreopen hfail hdrains =>
    have hw : w.drain id = some q := by rwa [drain, hdrains] at hq
    by_cases hid : id = r.id
    · subst hid
      rw [hr] at hw
      obtain rfl := Option.some.inj hw
      refine .refused hr hsettled hdone ?_
      rcases hfail with ⟨err, rfl⟩ | hrev
      · exact Or.inl (fun _ => Engine.reopenFence_refused hreopen)
      · exact Or.inr hrev
    · exact .bystander hw (Engine.reopenFence_keeps hreopen hid)
  | spawns hfree hspawn =>
    cases hw : w.drain id with
    | none =>
      obtain ⟨hmem, hstate, hgen, -, hrestored⟩ := hspawn.fresh id q hq hw
      exact .born hw (hfree _ hmem).1 (hfree _ hmem).2 hstate hgen hrestored
    | some r =>
      rw [hspawn.kept id r hw] at hq
      obtain rfl := Option.some.inj hq
      exact .bystander hw (.of_fence_eq hspawn.fence _ _)
  | recovers hrec =>
    obtain ⟨r, hw, hrestart⟩ := hrec.of_drain hq
    exact .keeps hw (.of_restarted hrestart) (hrec.same _ _)

/-- No event removes a drain. -/
theorem DrainStep.persists (h : DrainStep w ev w') (hr : w.drain id = some r) :
    ∃ r', w'.drain id = some r' := by
  have hrewrite : ∀ {q q' : DrainRecord}, Rewrites w q q' w' → ∃ r', w'.drain id = some r' := by
    intro q q' hrw
    rw [hrw.after]
    split_ifs
    · exact ⟨q', rfl⟩
    · exact ⟨r, hr⟩
  cases h with
  | stays _ hkept _ =>
    obtain ⟨r', -, hr'⟩ := hkept id r hr
    exact ⟨r', hr'⟩
  | moves hrw | closes hrw | closeFails hrw | settles hrw | cancels hrw | reopens hrw =>
    exact hrewrite hrw
  | reopenFails _ _ _ _ _ hdrains => exact ⟨r, by rw [drain, hdrains]; exact hr⟩
  | spawns _ hspawn => exact ⟨r, hspawn.kept id r hr⟩
  | recovers hrec =>
    obtain ⟨r', -, hr'⟩ := hrec.drain id r hr
    exact ⟨r', hr'⟩

/-- Drains that appear together have different targets. -/
theorem DrainStep.distinct (h : DrainStep w ev w') (hr : w'.drain id = some r)
    (hnone : w.drain id = none) (hr' : w'.drain id' = some r') (hnone' : w.drain id' = none)
    (htarget : r.target = r'.target) : id = id' := by
  -- Only a request adds drains.
  have hrewrite : ∀ {q q' : DrainRecord}, Rewrites w q q' w' → id = id' := by
    intro q q' hrw
    rcases hrw.cases hr with ⟨rfl, -⟩ | ⟨-, hw⟩
    · cases hnone.symm.trans hrw.before
    · cases hnone.symm.trans hw
  cases h with
  | stays hstays => cases (hstays id hnone).symm.trans hr
  | moves hrw | closes hrw | closeFails hrw | settles hrw | cancels hrw | reopens hrw =>
    exact hrewrite hrw
  | reopenFails _ _ _ _ _ hdrains =>
    rw [drain, hdrains] at hr
    cases hnone.symm.trans hr
  | spawns _ hspawn => exact hspawn.distinct id r id' r' hr hnone hr' hnone' htarget
  | recovers hrec => cases (hrec.none id hnone).symm.trans hr

/-- Of two drains of one target one stays out of use: a new drain found its target free, so
every older drain of it was restored. -/
theorem DrainStep.apart {P : DrainRecord → Prop} (h : DrainStep w ev w')
    (hrestored : ∀ q, q.state = .cancelled ∧ q.restoredAt ≠ 0 → P q)
    (hstays : ∀ {id q q'}, w.drain id = some q → w'.drain id = some q' → P q → P q')
    (inv : ∀ id r id' r', w.drain id = some r → w.drain id' = some r' → r.target = r'.target →
      id ≠ id' → P r ∨ P r') (id r id' r') (hr : w'.drain id = some r)
    (hr' : w'.drain id' = some r') (htarget : r.target = r'.target) (hne : id ≠ id') :
    P r ∨ P r' := by
  have hfree : ∀ {old new q q' s}, w.drain new = none → w'.drain new = some s →
      w.drain old = some q → w'.drain old = some q' → q'.target = s.target → P q' := by
    intro old new q q' s hnew hs hq hq' ht
    obtain ⟨-, -, -, hisFree, -⟩ := (h.fate hs).of_none hnew
    exact hstays hq hq' (hrestored q (hisFree old q hq (((h.fate hq').target hq).symm.trans ht)))
  cases hq : w.drain id with
  | none =>
    cases hq' : w.drain id' with
    | none => exact absurd (h.distinct hr hq hr' hq' htarget) hne
    | some q' => exact Or.inr (hfree hq hr hq' hr' htarget.symm)
  | some q =>
    cases hq' : w.drain id' with
    | none => exact Or.inl (hfree hq' hr' hq hr htarget)
    | some q' =>
      refine (inv id q id' q' hq hq' ?_ hne).imp (hstays hq hr) (hstays hq' hr')
      rw [← (h.fate hr).target hq, ← (h.fate hr').target hq', htarget]

/-! ### The fate of an obligation -/

/-- What no event changes about an obligation. -/
structure SameTerms (o o' : Obligation) : Prop where
  id : o'.id = o.id
  dependencies : o'.dependencies = o.dependencies
  protection : o'.protection = o.protection
  admissionGeneration : o'.admissionGeneration = o.admissionGeneration

theorem SameTerms.refl (o : Obligation) : SameTerms o o := ⟨rfl, rfl, rfl, rfl⟩

theorem SameTerms.trans {a b c : Obligation} (h : SameTerms a b) (h' : SameTerms b c) :
    SameTerms a c :=
  ⟨h'.id.trans h.id, h'.dependencies.trans h.dependencies, h'.protection.trans h.protection,
    h'.admissionGeneration.trans h.admissionGeneration⟩

theorem SameTerms.of_applyState {o : Obligation} {expected : Revision} {next : ObligationState}
    {evidence : EvidenceSeq} (h : o.applyState expected next evidence at_ = .ok o') :
    SameTerms o o' ∧ o'.state = next := by
  obtain ⟨-, hcase, hframe⟩ := Obligation.applyState_ok h
  constructor
  · rw [hframe]
    exact ⟨rfl, rfl, rfl, rfl⟩
  · rcases hcase with ⟨rfl, rfl⟩ | ⟨-, -, hstate, -⟩
    · rfl
    · exact hstate

/-- What an event means for the obligation that is left as `o'`. -/
inductive ObligationFate (w : World) (id : ObligationId) (o' : Obligation) : Event → Prop
  | keeps {ev : Event} {o : Obligation} :
      w.obligations.find id = some o → SameTerms o o' → o'.state = o.state →
      ObligationFate w id o' ev
  | admitted {draft : Obligation} {presented : Generation} {authority : AuthorityId}
      {now : TimePoint} :
      w.obligations.find id = none → o'.dependencies = draft.dependencies →
      o'.protection = draft.protection → o'.admissionGeneration = presented →
      (∀ target ∈ draft.dependencies, w.fence.checkAdmission target presented = .ok ()) →
      ObligationFate w id o' (.call (.admitObligation draft presented authority now))
  | reported {report : ObligationReport} {now : TimePoint} {o : Obligation} :
      w.obligations.find id = some o → SameTerms o o' → o'.state = report.next →
      ObligationFate w id o' (.call (.reportObligation report now))
  | retired {now : TimePoint} {r : DrainRecord} {o : Obligation} :
      w.drain r.id = some r → r.phase = .quiescing → id ∈ w.retirable r now →
      w.obligations.find id = some o → SameTerms o o' → o'.state = .retired →
      ObligationFate w id o' (.turn r.id now)

/-- One iteration of the retiring loop touches at most the obligation it names. -/
theorem find_retireOne (now : TimePoint) (acc : ObligationTable × Nat) (id k : ObligationId) :
    (Engine.retireOne now acc id).1.find k = acc.1.find k ∨
      ∃ o o', k = id ∧ acc.1.find k = some o ∧ (Engine.retireOne now acc id).1.find k = some o' ∧
        o.applyState o.revision .retired o.releaseEvidence now = .ok o' := by
  unfold Engine.retireOne
  cases hfind : acc.1.find id with
  | none => exact Or.inl rfl
  | some o =>
    cases happly : o.applyState o.revision .retired o.releaseEvidence now with
    | error err => exact Or.inl (by simp only [happly])
    | ok o' =>
      obtain ⟨hterms, -⟩ := SameTerms.of_applyState happly
      have hid : o'.id = id := hterms.id.trans (ObligationTable.id_of_find hfind)
      simp only [happly, ObligationTable.find_store, hid]
      by_cases hk : id = k
      · subst hk
        exact Or.inr ⟨o, o', rfl, hfind, if_pos rfl, happly⟩
      · exact Or.inl (if_neg hk)

/-- The retiring loop retires some of the obligations it names and no others. An id that
is listed twice makes no difference: the second retirement is a replay. -/
theorem find_foldl_retireOne (now : TimePoint) (ids : List ObligationId)
    (acc : ObligationTable × Nat) (k : ObligationId) :
    (ids.foldl (Engine.retireOne now) acc).1.find k = acc.1.find k ∨
      ∃ o o', k ∈ ids ∧ acc.1.find k = some o ∧
        (ids.foldl (Engine.retireOne now) acc).1.find k = some o' ∧
        o.applyState o.revision .retired o.releaseEvidence now = .ok o' := by
  induction ids generalizing acc with
  | nil => exact Or.inl rfl
  | cons id rest ih =>
    rw [List.foldl_cons]
    rcases find_retireOne now acc id k with hsame | ⟨o, o₁, rfl, hfind, hfind₁, happly⟩
    · rcases ih (Engine.retireOne now acc id) with hrest | ⟨o, o', hmem, hfind, hafter, happly⟩
      · exact Or.inl (hrest.trans hsame)
      · exact Or.inr ⟨o, o', List.mem_cons_of_mem _ hmem, hsame ▸ hfind, hafter, happly⟩
    · refine Or.inr ⟨o, o₁, List.mem_cons_self, hfind, ?_, happly⟩
      rcases ih (Engine.retireOne now acc k) with hrest | ⟨o₂, o', -, hfind₂, hafter, happly'⟩
      · exact hrest.trans hfind₁
      · obtain rfl := Option.some.inj (hfind₁.symm.trans hfind₂)
        rw [Obligation.applyState_again (SameTerms.of_applyState happly).2.symm] at happly'
        rw [hafter, Except.ok.inj happly']

/-- What an event made of an obligation. -/
inductive Rewritten (w : World) (o o' : Obligation) : Event → Prop
  | kept {ev : Event} : o' = o → Rewritten w o o' ev
  | reported {report : ObligationReport} {now : TimePoint} {applied : Obligation}
      {attempt : Attempt} {note : String} :
      report.obligation = o.id → Engine.reportFence w report = .ok () →
      o.applyState report.expectedRevision report.next report.evidence now = .ok applied →
      o' = { applied with attempt, note } →
      Rewritten w o o' (.call (.reportObligation report now))
  | retired {now : TimePoint} {r : DrainRecord} :
      w.drain r.id = some r → r.phase = .quiescing → o.id ∈ w.retirable r now →
      o.applyState o.revision .retired o.releaseEvidence now = .ok o' →
      Rewritten w o o' (.turn r.id now)
  | recovered {prev : IncarnationId} {now : TimePoint} :
      o' = o.persisted → Rewritten w o o' (.restart prev now)

/-- No event removes an obligation, and each is rewritten in one of these ways. -/
theorem ObligationStep.rewritten (h : ObligationStep w ev w') {id : ObligationId} {o : Obligation}
    (ho : w.obligations.find id = some o) :
    ∃ o', w'.obligations.find id = some o' ∧ Rewritten w o o' ev := by
  have hid := ObligationTable.id_of_find ho
  cases h with
  | same heq => exact ⟨o, by rw [ObligationTable.find, heq]; exact ho, .kept rfl⟩
  | @admits draft admitted presented authority now _ hcheck hinsert _ =>
    obtain ⟨hfree, -, -, htable⟩ := ObligationTable.insert_ok hinsert
    have hne : admitted.id ≠ id := by
      intro heq
      rw [heq, ho] at hfree
      cases hfree
    refine ⟨o, ?_, .kept rfl⟩
    rw [htable]
    exact (ObligationTable.find_store _ _ _).trans ((if_neg hne).trans ho)
  | @reports report now q applied attempt note _ hfind hfence happly htable _ =>
    have hid' := ObligationTable.id_of_find hfind
    obtain ⟨hterms, -⟩ := SameTerms.of_applyState happly
    rw [htable, ObligationTable.find_store]
    by_cases hk : report.obligation = id
    · rw [hk, ho] at hfind
      obtain rfl := Option.some.inj hfind
      exact ⟨_, if_pos (hterms.id.trans hid), .reported (hk.trans hid.symm) hfence happly rfl⟩
    · exact ⟨o, (if_neg (fun heq => hk (hid'.symm.trans (hterms.id.symm.trans heq)))).trans ho,
        .kept rfl⟩
  | @retires now r _ hr hphase htable _ =>
    rw [htable]
    rcases find_foldl_retireOne now (w.retirable r now) (w.obligations, 0) id with
      hsame | ⟨q, o', hmem, hfind, hafter, happly⟩
    · exact ⟨o, hsame.trans ho, .kept rfl⟩
    · obtain rfl := Option.some.inj (ho.symm.trans hfind)
      exact ⟨o', hafter, .retired hr hphase (hid.symm ▸ hmem) happly⟩
  | recovers heq =>
    refine ⟨o.persisted, ?_, .recovered rfl⟩
    rw [ObligationTable.find, heq, Table.find?_mapVals]
    exact congrArg (Option.map Obligation.persisted) ho

/-- Only an admission adds an obligation. -/
theorem ObligationStep.of_none (h : ObligationStep w ev w') {id : ObligationId}
    (hnone : w.obligations.find id = none) (ho : w'.obligations.find id = some o') :
    ObligationFate w id o' ev := by
  cases h with
  | same heq =>
    rw [ObligationTable.find, heq] at ho
    cases hnone.symm.trans ho
  | @admits draft o presented authority now _ hcheck hinsert _ =>
    obtain ⟨hfree, hdraft, -, htable⟩ := ObligationTable.insert_ok hinsert
    have hfind : w'.obligations.find id = if o.id = id then some o else w.obligations.find id := by
      rw [htable]
      exact ObligationTable.find_store _ _ _
    rw [hfind] at ho
    split_ifs at ho with hid
    · obtain rfl := Option.some.inj ho
      exact .admitted hnone (by rw [hdraft]) (by rw [hdraft]) (by rw [hdraft]) hcheck
    · cases hnone.symm.trans ho
  | @reports report now o applied attempt note _ hfind _ happly htable _ =>
    obtain ⟨hterms, -⟩ := SameTerms.of_applyState happly
    rw [htable, ObligationTable.find_store] at ho
    split_ifs at ho with hid
    · have hid' : report.obligation = id := by
        rw [← ObligationTable.id_of_find hfind, ← hid]
        exact hterms.id.symm
      rw [hid'] at hfind
      cases hnone.symm.trans hfind
    · cases hnone.symm.trans ho
  | @retires now r _ _ _ htable _ =>
    rw [htable] at ho
    rcases find_foldl_retireOne now (w.retirable r now) (w.obligations, 0) id with
      hsame | ⟨_, _, -, hfind, -⟩
    · cases hnone.symm.trans (hsame.symm.trans ho)
    · cases hnone.symm.trans hfind
  | recovers heq =>
    rw [ObligationTable.find, heq, Table.find?_mapVals, Option.map_eq_some_iff] at ho
    obtain ⟨o, hfind, -⟩ := ho
    cases hnone.symm.trans hfind

/-- Every obligation after an event met one of the fates. -/
theorem ObligationStep.fate (h : ObligationStep w ev w') {id : ObligationId}
    (ho' : w'.obligations.find id = some o') : ObligationFate w id o' ev := by
  cases ho : w.obligations.find id with
  | none => exact h.of_none ho ho'
  | some o =>
    have hid := ObligationTable.id_of_find ho
    obtain ⟨q, hq, hrewritten⟩ := h.rewritten ho
    obtain rfl := Option.some.inj (ho'.symm.trans hq)
    cases hrewritten with
    | kept heq => exact .keeps (heq ▸ ho) (.refl _) rfl
    | reported _ _ happly heq =>
      obtain ⟨hterms, hstate⟩ := SameTerms.of_applyState happly
      rw [heq]
      exact .reported ho ⟨hterms.id, hterms.dependencies, hterms.protection,
        hterms.admissionGeneration⟩ hstate
    | retired hr hphase hmem happly =>
      obtain ⟨hterms, hstate⟩ := SameTerms.of_applyState happly
      exact .retired hr hphase (hid ▸ hmem) ho hterms hstate
    | recovered heq =>
      rw [heq]
      exact .keeps ho ⟨rfl, rfl, rfl, rfl⟩ rfl

/-! ### The unconditional invariants -/

/-- What holds in every reachable state, whatever was called. -/
structure Fenced (w : World) : Prop where
  /-- From `AdmissionClosed` to `Verifying` a drain holds its fence. -/
  held : ∀ id r, w.drain id = some r → isFenceHoldingState r.phase = true →
    w.fence.HeldBy r.target id r.generation
  /-- A restoring drain does not hold its fence any more. -/
  restoring : ∀ id r, w.drain id = some r → r.phase = .restoring → ¬ w.fence.ClosedBy r.target id
  /-- No drain fails, and only an unsettled drain is blocked. -/
  shape : ∀ id r, w.drain id = some r → r.phase ≠ .failed ∧ r.phase ≠ .blocked ∧
    (isSettled r.phase = true → r.state = r.phase)

theorem fenced_init (policy : DrainPolicy) : Fenced (Engine.init policy).toWorld :=
  ⟨fun _ _ h => by simp at h, fun _ _ h => by simp at h, fun _ _ h => by simp at h⟩

theorem phase_of_settled (h : isSettled r.state = true) : r.phase = r.state :=
  DrainRecord.phase_of_not_blocked (fun hb => by simp [hb, isSettled] at h)

/-- The forward path never leaves `Restoring` or a settled state, and reaches a
fence-holding one only from another. -/
theorem Path.facts {source next : DrainState} (h : Path source next) :
    next ≠ .failed ∧ next ≠ .blocked ∧ next ≠ .restoring ∧ next ≠ .cancelled ∧
      (isFenceHoldingState next = true → isFenceHoldingState source = true) := by
  cases h with
  | forward hf => cases hf <;> decide
  | remove => decide
  | complete => decide

/-- The forward path stays in front of the closure only by entering `Validating`. -/
theorem Path.start {source next : DrainState} (h : Path source next)
    (hnext : next = .requested ∨ next = .validating) : source = .requested := by
  cases h with
  | forward hf => cases hf <;> simp at hnext ⊢
  | remove => simp at hnext
  | complete => simp at hnext

/-- Phases that no step of the forward path starts from are not left, if cancellation and
restoration lead to them. -/
theorem Fate.stays_in {S : DrainState → Bool} (h : Fate w id r' w' ev)
    (hpath : ∀ source next, Path source next → S source = false) (hstart : S .validating = false)
    (hcancelled : S .cancelled = true) (hrestoring : S .restoring = true)
    (hr : w.drain id = some r) (hp : S r.phase = true) : S r'.phase = true := by
  have hsame : ∀ {q : DrainRecord}, w.drain id = some q → S q.phase = true := by
    intro q hq
    rwa [← Option.some.inj (hr.symm.trans hq)]
  cases h with
  | born hnone => cases hnone.symm.trans hr
  | keeps hq kept => exact kept.phase ▸ hsame hq
  | moves hq _ hmove => cases (hpath _ _ hmove).symm.trans (hsame hq)
  | closes hq _ hvalidating => cases hstart.symm.trans (hvalidating ▸ hsame hq)
  | retries hq hold => exact hold.phase ▸ hsame hq
  | settles _ _ _ hs | cancels _ _ _ _ hs | reopens _ _ _ _ hs =>
    rwa [DrainRecord.phase_of_state hs (by decide)]
  | refused hq => exact hsame hq

/-- A drain that holds its fence after an event held it before, or has just closed it
around a resource in service. -/
theorem Fate.fenceHolding (h : Fate w id r' w' ev) (hp : isFenceHoldingState r'.phase = true) :
    ∃ r, w.drain id = some r ∧
      (isFenceHoldingState r.phase = true ∨
        r.phase = .validating ∧ (∃ now, ev = .turn id now) ∧
          ∃ node, w.topology.resource r.target.id = some node ∧ node.status = .inService) := by
  cases h with
  | born _ _ _ hs => simp [DrainRecord.phase_of_state hs, isFenceHoldingState] at hp
  | keeps hr kept => exact ⟨_, hr, Or.inl (kept.phase ▸ hp)⟩
  | moves hr _ hpath => exact ⟨_, hr, Or.inl (hpath.facts.2.2.2.2 hp)⟩
  | closes hr _ hphase _ _ hservice => exact ⟨_, hr, Or.inr ⟨hphase, ⟨_, rfl⟩, hservice⟩⟩
  | retries hr hold => exact ⟨_, hr, Or.inl (hold.phase ▸ hp)⟩
  | settles _ _ _ hs | cancels _ _ _ _ hs | reopens _ _ _ _ hs =>
    simp [DrainRecord.phase_of_state hs, isFenceHoldingState] at hp
  | refused hr => exact ⟨_, hr, Or.inl hp⟩

theorem fenced_step (inv : Fenced w) (h : DrainStep w ev w') : Fenced w' := by
  refine ⟨fun id r' hr' hp => ?_, fun id r' hr' hp => ?_, fun id r' hr' => ?_⟩
  · cases h.fate hr' with
    | born _ _ _ hs => simp [DrainRecord.phase_of_state hs, isFenceHoldingState] at hp
    | keeps hr kept same =>
      rw [kept.target, kept.generation]
      exact same.held _ (inv.held id _ hr (kept.phase ▸ hp))
    | moves hr htarget hpath _ hgen _ hfence =>
      rw [htarget, hgen, hfence]
      exact inv.held id _ hr (hpath.facts.2.2.2.2 hp)
    | closes _ htarget _ hheld => exact htarget ▸ hheld
    | retries _ hold hphase => simp [hold.phase, hphase, isFenceHoldingState] at hp
    | settles _ _ _ hs | cancels _ _ _ _ hs | reopens _ _ _ _ hs =>
      simp [DrainRecord.phase_of_state hs, isFenceHoldingState] at hp
    | refused _ hs =>
      rw [phase_of_settled hs] at hp
      cases hstate' : r'.state <;> simp [hstate', isSettled, isFenceHoldingState] at hs hp
  · cases h.fate hr' with
    | born _ _ _ hs => simp [DrainRecord.phase_of_state hs] at hp
    | keeps hr kept same =>
      rw [kept.target]
      exact fun hc => inv.restoring id _ hr (kept.phase ▸ hp) (same.closed hc)
    | moves _ _ hpath => exact absurd hp hpath.facts.2.2.1
    | closes _ _ _ _ _ _ hcase =>
      rcases hcase with hs | ⟨hphase, -⟩
      · simp [DrainRecord.phase_of_state hs] at hp
      · simp [hphase] at hp
    | retries _ hold hphase => simp [hold.phase, hphase] at hp
    | settles _ _ _ hs => simp [DrainRecord.phase_of_state hs] at hp
    | cancels _ _ _ _ hs => simp [DrainRecord.phase_of_state hs] at hp
    | reopens _ htarget _ _ _ _ _ hopen =>
      rintro ⟨e, he, hclosed, -⟩
      have : w'.fence.isClosed r'.target = true := isClosed_iff.mpr ⟨e, he, hclosed⟩
      rw [htarget, hopen] at this
      cases this
    | refused _ hs =>
      rw [phase_of_settled hs] at hp
      simp [hp, isSettled] at hs
  · cases h.fate hr' with
    | born _ _ _ hs => simp [DrainRecord.phase_of_state hs, isSettled]
    | keeps hr kept _ =>
      obtain ⟨hfailed, hblocked, hsettled⟩ := inv.shape id _ hr
      rw [kept.phase]
      refine ⟨hfailed, hblocked, fun hs => ?_⟩
      have hsame := hsettled hs
      rw [kept.settled (hsame ▸ hs), hsame]
    | moves _ _ hpath hs => exact ⟨hpath.facts.1, hpath.facts.2.1, fun _ => hs⟩
    | closes _ _ _ _ _ _ hcase =>
      rcases hcase with hs | ⟨hphase, -⟩
      · simp [DrainRecord.phase_of_state hs, isSettled]
      · simp [hphase, isSettled]
    | retries _ hold hphase => simp [hold.phase, hphase, isSettled]
    | settles _ _ _ hs => simp [DrainRecord.phase_of_state hs, hs]
    | cancels _ _ _ _ hs => simp [DrainRecord.phase_of_state hs, hs]
    | reopens _ _ _ _ hs => simp [DrainRecord.phase_of_state hs, isSettled]
    | refused hr => exact inv.shape id r' hr

/-! ### Resources -/

/-- No event removes a resource. -/
theorem ResourceStep.persists (h : ResourceStep w ev w') {id : ResourceId} {node : ResourceNode}
    (hnode : w.topology.resource id = some node) :
    ∃ node', w'.topology.resource id = some node' := by
  have hset : ∀ {other : ResourceId} {status : ResourceStatus},
      w.topology.setStatus other status = .ok w'.topology →
      ∃ node', w'.topology.resource id = some node' := by
    intro other status hset
    rw [Topology.resource_setStatus hset id]
    split_ifs with hid
    · exact ⟨_, by rw [← hid, hnode]; rfl⟩
    · exact ⟨node, hnode⟩
  cases h with
  | same heq => exact ⟨node, by rw [Topology.resource, heq]; exact hnode⟩
  | @adds added _ _ hfree hput =>
    rw [Topology.resource, hput, Table.find?_put]
    split_ifs
    · exact ⟨added, rfl⟩
    · exact ⟨node, hnode⟩
  | reports h => exact hset h
  | removes _ _ _ _ _ h => exact hset h
  | restores _ _ _ h => exact hset h

/-- A turn leaves the resources alone, unless it is the removal step, or the drain is
being restored and its resource is put back in service. -/
theorem ResourceStep.of_turn (h : ResourceStep w (.turn id now) w') :
    w'.topology.resources = w.topology.resources ∨
      ∃ r, w.drain id = some r ∧ (r.phase = .quiescing ∨ r.phase = .restoring ∧
        w.topology.setStatus r.target.id .inService = .ok w'.topology) := by
  generalize hev : Event.turn id now = ev at h
  cases h with
  | same heq => exact Or.inl heq
  | adds => cases hev
  | reports => cases hev
  | removes hr hphase =>
    obtain ⟨rfl, -⟩ := Event.turn.inj hev
    exact Or.inr ⟨_, hr, Or.inl hphase⟩
  | restores hr hphase _ hset =>
    obtain ⟨rfl, -⟩ := Event.turn.inj hev
    exact Or.inr ⟨_, hr, Or.inr ⟨hphase, hset⟩⟩

/-- The resource exists and is out of service. -/
def OutOfService (w : World) (id : ResourceId) : Prop :=
  ∃ node, w.topology.resource id = some node ∧ node.status = .unavailable

theorem OutOfService.of_setStatus {id other : ResourceId}
    (hset : w.topology.setStatus other .unavailable = .ok w'.topology) (h : w.OutOfService id) :
    w'.OutOfService id := by
  obtain ⟨node, hnode, hstatus⟩ := h
  have hresource := Topology.resource_setStatus hset id
  by_cases hid : id = other
  · rw [if_pos hid, ← hid, hnode] at hresource
    exact ⟨_, hresource, rfl⟩
  · rw [if_neg hid] at hresource
    exact ⟨node, hresource.trans hnode, hstatus⟩

/-- Only a status report puts a resource back in service: a restoring drain no longer
owns the removal it performed. -/
theorem outOfService_step {id : ResourceId} (inv : Fenced w) (h : ResourceStep w ev w')
    (hreport : ∀ status now, ev ≠ .call (.reportResourceStatus id status now))
    (hout : w.OutOfService id) : w'.OutOfService id := by
  cases h with
  | same heq =>
    obtain ⟨node, hnode, hstatus⟩ := hout
    refine ⟨node, ?_, hstatus⟩
    rw [Topology.resource, heq]
    exact hnode
  | @adds added _ _ hfree hput =>
    obtain ⟨node, hnode, hstatus⟩ := hout
    have hne : added.id ≠ id := by
      rintro rfl
      rw [hfree] at hnode
      cases hnode
    refine ⟨node, ?_, hstatus⟩
    rw [Topology.resource, hput, Table.find?_put_of_ne hne]
    exact hnode
  | @reports other status now _ hset =>
    have hne : id ≠ other := by
      rintro rfl
      exact hreport status now rfl
    obtain ⟨node, hnode, hstatus⟩ := hout
    refine ⟨node, ?_, hstatus⟩
    rw [Topology.resource_setStatus hset id, if_neg hne]
    exact hnode
  | removes _ _ _ _ _ hset => exact hout.of_setStatus hset
  | restores hr hphase howned _ =>
    exact absurd (removalOwnedBy_iff.mp howned).2 (inv.restoring _ _ hr hphase)

end World

namespace Engine

open World

theorem fenced_fire (e : Engine) (ev : Event) (inv : Fenced e.toWorld) :
    Fenced (e.fire ev).toWorld :=
  fenced_step inv (fire_drainStep e ev)

/-- The invariants hold along every run. -/
theorem fenced_run {e : Engine} (inv : Fenced e.toWorld) (events : List Event) :
    Fenced (run fire e events).toWorld :=
  run_invariant (P := fun e : Engine => Fenced e.toWorld) (C := fun _ _ => True)
    (fun e ev h _ => fenced_fire e ev h) inv (always_of_forall (fun _ _ _ => trivial) e)

theorem Reachable.fenced {C : Engine → Event → Prop} {e : Engine} (h : Reachable C e) :
    Fenced e.toWorld :=
  h.invariant (P := fun e : Engine => Fenced e.toWorld) fenced_init
    (fun e ev inv _ => fenced_fire e ev inv)

end Engine

end DrainFabric
