import DrainFabric.Identity
import DrainFabric.Lib.Table

/-!
# The admission fence

`admission.hpp`: for every target that was ever fenced, whether admission is
closed, by which drain, and under which generation. Closing and reopening both
advance the generation.

* `close_ok`, `close_error`, `reopen_ok` — what each operation does to the entry of
  its target, and that it leaves every other entry alone;
* `entry_of_loaded` — entries survive a restart.
-/

namespace DrainFabric

open Lib

variable {target : DrainTarget} {drain : DrainId} {at_ : TimePoint} {reason : String}
  {next : Generation}

def maxFencedTargets : Nat := 65536

structure FenceEntry where
  closed : Bool := false
  generation : Generation := 0
  drain : DrainId := 0
  closedAt : TimePoint := 0
  openedAt : TimePoint := 0
  reason : String := ""
  deriving DecidableEq, Repr

namespace FenceEntry

/-- `to_json`. -/
def toJson (e : FenceEntry) : JsonValue :=
  .object [("closed", .bool e.closed), ("generation", .uint e.generation),
    ("drain", .uint e.drain), ("closed_at_ns", .ofCount e.closedAt),
    ("opened_at_ns", .ofCount e.openedAt), ("reason", .string e.reason)]

/-- `from_json`. -/
def fromJson (value : JsonValue) : Result FenceEntry := do
  rejectIf (¬ value.isObject) .persistenceCorrupt "fence entry is not an object"
  let entry : FenceEntry :=
    { closed := value.getBool "closed", generation := value.readU64 "generation",
      drain := value.readU64 "drain", closedAt := value.readI64 "closed_at_ns",
      openedAt := value.readI64 "opened_at_ns", reason := value.getString "reason" }
  rejectIf (entry.generation = 0)
    .persistenceCorrupt "fence entry has a reserved zero generation"
  rejectIf (entry.closed ∧ entry.drain = 0)
    .persistenceCorrupt "closed fence entry lacks a drain id"
  return entry

/-- The entry a restart recovers. -/
def persisted (e : FenceEntry) : FenceEntry :=
  { e with closedAt := persistedCount e.closedAt, openedAt := persistedCount e.openedAt }

end FenceEntry

structure AdmissionFence where
  entries : OrdMap DrainTarget FenceEntry := Table.empty Prod.fst

variable {f f' : AdmissionFence}

namespace AdmissionFence

/-- `entry`. -/
def entry (f : AdmissionFence) (target : DrainTarget) : Option FenceEntry :=
  OrdMap.get? f.entries target

/-- `is_closed`. -/
def isClosed (f : AdmissionFence) (target : DrainTarget) : Bool :=
  (f.entry target).any (fun e => e.closed)

/-- `generation`: zero for a target that was never fenced. -/
def generation (f : AdmissionFence) (target : DrainTarget) : Generation :=
  ((f.entry target).map FenceEntry.generation).getD 0

/-- `close`. Looking the entry up inserts a default one, so a closure that fails
on the generation or on the capacity of the table erases the entry. -/
def close (f : AdmissionFence) (target : DrainTarget) (drain : DrainId) (at_ : TimePoint)
    (reason : String) : AdmissionFence × Result Generation :=
  if drain = 0 then
    (f, fail .invalidArgument "a fence closure must name the drain that closed it")
  else
    let current := (f.entry target).getD {}
    let entries := OrdMap.set f.entries target current
    match incrementChecked current.generation with
    | none => ({ f with entries := Table.erase entries target },
        fail .boundsExceeded "admission generation space exhausted for this target")
    | some next =>
      if entries.size > maxFencedTargets then
        ({ f with entries := Table.erase entries target },
          fail .boundsExceeded "admission fence table is at capacity")
      else
        let closed := { current with closed := true, generation := next, drain,
                                     closedAt := at_, reason }
        ({ f with entries := OrdMap.set entries target closed }, .ok next)

/-- `reopen`. -/
def reopen (f : AdmissionFence) (target : DrainTarget) (drain : DrainId) (at_ : TimePoint)
    (reason : String) : Result (AdmissionFence × Generation) :=
  match f.entry target with
  | none => fail .illegalTransition "admission for this target is not closed"
  | some current =>
    if !current.closed then
      fail .illegalTransition "admission for this target is not closed"
    else if drain = 0 then
      fail .invalidArgument "a fence reopen must name the drain that owns the closure"
    else
      match incrementChecked current.generation with
      | none => fail .boundsExceeded "admission generation space exhausted for this target"
      | some next =>
        let opened := { current with closed := false, generation := next, drain,
                                     openedAt := at_, reason }
        .ok ({ f with entries := OrdMap.set f.entries target opened }, next)

/-- `check_admission`. -/
def checkAdmission (f : AdmissionFence) (target : DrainTarget) (presented : Generation) : Status :=
  match f.entry target with
  | none =>
    rejectIf (presented ≠ 0) .staleGeneration ("target " ++ target.toString ++
      " has never been fenced, so generation " ++ toString presented ++ " cannot be current")
  | some e =>
    if presented ≠ e.generation then
      fail .staleGeneration ("target " ++ target.toString ++ " is at generation " ++
        toString e.generation ++ " but the caller presented " ++ toString presented)
    else
      rejectIf e.closed .admissionClosed ("admission for " ++ target.toString ++
        " is closed by drain " ++ toString e.drain)

/-- `to_json`. -/
def toJson (f : AdmissionFence) : JsonValue :=
  .object [("entries", .array (f.entries.toList.map (fun (target, e) =>
    .object [("target", target.toJson), ("entry", e.toJson)])))]

/-- One iteration of the loop of `load_from_json`. -/
def loadEntry (staged : OrdMap DrainTarget FenceEntry) (item : JsonValue) :
    Result (OrdMap DrainTarget FenceEntry) := do
  let targetValue ← orFail (item.find "target")
    .persistenceCorrupt "fence entry lacks target or entry payload"
  let entryValue ← orFail (item.find "entry")
    .persistenceCorrupt "fence entry lacks target or entry payload"
  let target ← (DrainTarget.fromJson targetValue).mapError (fun _ =>
    ⟨.persistenceCorrupt, "fence entry target rejected"⟩)
  let e ← (FenceEntry.fromJson entryValue).mapError (fun err =>
    ⟨.persistenceCorrupt, "fence entry rejected: " ++ err.message⟩)
  orFail (Table.emplace staged (target, e))
    .persistenceCorrupt "duplicate fence entry for a target"

/-- `load_from_json`. -/
def loadFromJson (value : JsonValue) : Result AdmissionFence := do
  rejectIf (¬ value.isObject) .persistenceCorrupt "admission fence payload is not an object"
  let items ← orFail (value.findArray "entries")
    .persistenceCorrupt "admission fence payload lacks an entries array"
  rejectIf (items.length > maxFencedTargets) .boundsExceeded "fence entry count exceeds bound"
  let entries ← items.foldlM loadEntry (Table.empty Prod.fst)
  return { entries }

/-! ### Lemmas -/

/-- The fence of the target is closed by the drain. -/
def ClosedBy (f : AdmissionFence) (target : DrainTarget) (id : DrainId) : Prop :=
  ∃ e, f.entry target = some e ∧ e.closed = true ∧ e.drain = id

/-- The fence of the target is closed by the drain, under the generation. -/
def HeldBy (f : AdmissionFence) (target : DrainTarget) (id : DrainId) (generation : Generation) :
    Prop :=
  ∃ e, f.entry target = some e ∧ e.closed = true ∧ e.drain = id ∧ e.generation = generation

theorem HeldBy.closedBy {id : DrainId} {generation : Generation}
    (h : f.HeldBy target id generation) : f.ClosedBy target id := by
  obtain ⟨e, he, hclosed, hdrain, -⟩ := h
  exact ⟨e, he, hclosed, hdrain⟩

theorem isClosed_iff :
    f.isClosed target = true ↔ ∃ e, f.entry target = some e ∧ e.closed = true := by
  unfold isClosed
  cases f.entry target <;> simp

theorem generation_of_entry {e : FenceEntry} (h : f.entry target = some e) :
    f.generation target = e.generation := by
  simp [generation, h]

theorem generation_getD (f : AdmissionFence) (target : DrainTarget) :
    ((f.entry target).getD {}).generation = f.generation target := by
  unfold generation
  cases f.entry target <;> rfl

/-- What a successful closure writes, within which bounds. -/
theorem close_eq_ok (h : f.close target drain at_ reason = (f', .ok next)) :
    let current := (f.entry target).getD {}
    let entries := OrdMap.set f.entries target current
    f.generation target < u64Max ∧ next = f.generation target + 1 ∧
      entries.size ≤ maxFencedTargets ∧
      f' = { f with entries := OrdMap.set entries target { current with
        closed := true, generation := next, drain, closedAt := at_, reason } } := by
  unfold close at h
  split_ifs at h with hzero
  · simp [fail] at h
  · simp only [generation_getD] at h
    cases hnext : incrementChecked (f.generation target) with
    | none => simp [hnext, fail] at h
    | some n =>
      obtain ⟨hlt, rfl⟩ := incrementChecked_eq_some hnext
      simp only [hnext] at h
      split_ifs at h with hfull
      · simp [fail] at h
      · simp only [Prod.mk.injEq, Except.ok.injEq] at h
        obtain ⟨rfl, rfl⟩ := h
        exact ⟨hlt, rfl, Nat.not_lt.mp hfull, rfl⟩

/-- A successful closure closes the entry of its target under the next generation
and touches no other entry. -/
theorem close_ok (h : f.close target drain at_ reason = (f', .ok next)) :
    f.generation target < u64Max ∧ next = f.generation target + 1 ∧
      (∃ e, f'.entry target = some e ∧ e.closed = true ∧ e.drain = drain ∧ e.generation = next) ∧
      ∀ other, other ≠ target → f'.entry other = f.entry other := by
  obtain ⟨hlt, hnext, -, rfl⟩ := close_eq_ok h
  refine ⟨hlt, hnext, ⟨_, OrdMap.get?_set_self _ _ _, rfl, rfl, rfl⟩, fun other hne => ?_⟩
  simp only [entry]
  rw [OrdMap.get?_set_of_ne (Ne.symm hne), OrdMap.get?_set_of_ne (Ne.symm hne)]

/-- A failed closure by a named drain erases the entry of its target. -/
theorem close_error {err : Error} (h : f.close target drain at_ reason = (f', .error err)) :
    f' = f ∨ (f'.entry target = none ∧ ∀ other, other ≠ target → f'.entry other = f.entry other) := by
  have herase : ∀ g : AdmissionFence, ∀ current : FenceEntry,
      g = { f with entries := Table.erase (OrdMap.set f.entries target current) target } →
      g.entry target = none ∧ ∀ other, other ≠ target → g.entry other = f.entry other := by
    rintro g current rfl
    refine ⟨by simp [entry, OrdMap.get?_erase], fun other hne => ?_⟩
    simp only [entry]
    rw [OrdMap.get?_erase, if_neg hne, OrdMap.get?_set_of_ne (Ne.symm hne)]
  unfold close at h
  split_ifs at h with hzero
  · exact Or.inl (Prod.mk.inj h).1.symm
  · refine Or.inr ?_
    cases hnext : incrementChecked ((f.entry target).getD {}).generation with
    | none =>
      simp only [hnext] at h
      exact herase f' _ (Prod.mk.inj h).1.symm
    | some n =>
      simp only [hnext] at h
      split_ifs at h with hfull
      · exact herase f' _ (Prod.mk.inj h).1.symm
      · simp at h

/-- A closure by a proper drain fails only when a bound is reached. -/
theorem code_of_close_error {err : Error} (hdrain : drain ≠ 0)
    (h : (f.close target drain at_ reason).2 = .error err) : err.code = .boundsExceeded := by
  unfold close at h
  rw [if_neg hdrain] at h
  dsimp only at h
  split at h
  · cases h
    rfl
  · split_ifs at h
    · cases h
      rfl

/-- What a successful reopening writes. -/
theorem reopen_eq_ok (h : f.reopen target drain at_ reason = .ok (f', next)) :
    ∃ before, f.entry target = some before ∧ before.closed = true ∧
      next = before.generation + 1 ∧
      f' = { f with entries := OrdMap.set f.entries target { before with
        closed := false, generation := next, drain, openedAt := at_, reason } } := by
  unfold reopen at h
  cases hentry : f.entry target with
  | none => simp [hentry] at h
  | some before =>
    simp only [hentry] at h
    split_ifs at h with hopen hzero
    · exact absurd h fail_ne_ok
    · exact absurd h fail_ne_ok
    · cases hnext : incrementChecked before.generation with
      | none => simp [hnext] at h
      | some n =>
        obtain ⟨-, rfl⟩ := incrementChecked_eq_some hnext
        simp only [hnext, Except.ok.injEq, Prod.mk.injEq] at h
        obtain ⟨rfl, rfl⟩ := h
        exact ⟨before, rfl, by simpa using hopen, rfl, rfl⟩

/-- A successful reopening opens the closed entry of its target under the next
generation and touches no other entry. -/
theorem reopen_ok (h : f.reopen target drain at_ reason = .ok (f', next)) :
    ∃ before after, f.entry target = some before ∧ before.closed = true ∧
      f'.entry target = some after ∧ after.closed = false ∧ after.drain = drain ∧
      after.generation = next ∧ next = before.generation + 1 ∧
      ∀ other, other ≠ target → f'.entry other = f.entry other := by
  obtain ⟨before, hentry, hclosed, hnext, rfl⟩ := reopen_eq_ok h
  refine ⟨before, _, hentry, hclosed, OrdMap.get?_set_self _ _ _, rfl, rfl, rfl, hnext,
    fun other hne => ?_⟩
  simp only [entry]
  rw [OrdMap.get?_set_of_ne (Ne.symm hne)]

/-- A reopening by a proper drain succeeds while there is a generation left. -/
theorem reopen_of_closed {entry : FenceEntry} (hentry : f.entry target = some entry)
    (hclosed : entry.closed = true) (hdrain : drain ≠ 0) (at_ : TimePoint) (reason : String) :
    (entry.generation < u64Max →
      ∃ f', f.reopen target drain at_ reason = .ok (f', entry.generation + 1)) ∧
    (u64Max ≤ entry.generation → ∃ err, f.reopen target drain at_ reason = .error err) := by
  simp only [reopen, hentry, hclosed, if_neg hdrain, incrementChecked_eq]
  constructor
  · intro hroom
    rw [if_pos hroom]
    exact ⟨_, rfl⟩
  · intro hfull
    rw [if_neg (Nat.not_lt.mpr hfull)]
    exact ⟨_, rfl⟩

theorem issued_of_reopen (h : f.reopen target drain at_ reason = .ok (f', next)) :
    f'.generation target = next := by
  obtain ⟨_, after, -, -, hafter, -, -, hgen, -⟩ := reopen_ok h
  rw [generation_of_entry hafter, hgen]

theorem generation_of_reopen (h : f.reopen target drain at_ reason = .ok (f', next)) :
    f'.generation target = f.generation target + 1 := by
  obtain ⟨before, after, hbefore, -, hafter, -, -, hgen, hnext, -⟩ := reopen_ok h
  rw [generation_of_entry hafter, generation_of_entry hbefore, hgen, hnext]

theorem generation_of_close (h : f.close target drain at_ reason = (f', .ok next)) :
    f'.generation target = f.generation target + 1 := by
  obtain ⟨-, hnext, ⟨after, hafter, -, -, hgen⟩, -⟩ := close_ok h
  rw [generation_of_entry hafter, hgen, hnext]

/-- Without a generation left a closure by a proper drain fails, and its target is no
longer known to have been fenced. -/
theorem close_of_exhausted (hdrain : drain ≠ 0) (hfull : u64Max ≤ f.generation target)
    (at_ : TimePoint) (reason : String) :
    ∃ f' err, f.close target drain at_ reason = (f', .error err) ∧ f'.generation target = 0 := by
  have hnone : incrementChecked ((f.entry target).getD {}).generation = none := by
    rw [generation_getD, incrementChecked_eq, if_neg (Nat.not_lt.mpr hfull)]
  simp only [close, if_neg hdrain, hnone]
  refine ⟨_, _, rfl, ?_⟩
  simp [generation, entry, OrdMap.get?_erase]

/-- Admission is granted for an open target at its current generation. -/
theorem checkAdmission_ok {presented : Generation} {u : Unit}
    (h : f.checkAdmission target presented = .ok u) :
    presented = f.generation target ∧ f.isClosed target = false := by
  unfold checkAdmission at h
  cases hentry : f.entry target with
  | none =>
    simp only [hentry, rejectIf_eq_ok, not_not] at h
    simp [generation, isClosed, hentry, h]
  | some e =>
    simp only [hentry] at h
    split_ifs at h with hstale
    · exact absurd h fail_ne_ok
    · simp only [rejectIf_eq_ok, Bool.not_eq_true] at h
      rw [ne_eq, not_not] at hstale
      simp [generation, isClosed, hentry, hstale, h]

/-- A restart recovers every fence entry, up to the sign of its times. -/
theorem entry_of_loaded
    (h : f'.entries = f.entries.mapVals (fun p => (p.1, p.2.persisted)) (fun _ => rfl))
    (target : DrainTarget) : f'.entry target = (f.entry target).map FenceEntry.persisted := by
  simp only [entry, OrdMap.get?, h, Table.find?_mapVals, Option.map_map]
  rfl

end AdmissionFence

end DrainFabric
