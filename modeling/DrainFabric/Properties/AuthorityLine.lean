import DrainFabric.Engine.Run

/-!
# The authority line under concurrency

Every entry point of the engine takes its mutex once, except `begin_new_epoch`: it
reads the epoch in one critical section and installs the next one in another. An
interleaving of such calls is a list of critical sections; a call between its two
sections is held as the arguments it was made with and the epoch it read.

* `line_advances_iff` — a call that succeeds advances the incarnation; it advances the
  epoch exactly when the epoch it installs is not the one in force already;
* `line_repeats_epoch` — two calls that read one epoch both succeed.
-/

namespace DrainFabric

open Lib Engine

/-- A call of `begin_new_epoch` that has read the epoch. -/
structure EpochCall where
  incarnation : IncarnationId
  now : TimePoint
  reason : String
  read : Epoch
  deriving DecidableEq

/-- The engine, and for each thread the call of `begin_new_epoch` it is in. -/
structure Threads where
  engine : Engine
  calls : Nat → Option EpochCall

variable {s : Threads}

/-- The critical sections of the two calls that move the line. -/
inductive CriticalSection
  /-- The first half of `begin_new_epoch`: `increment_checked(epoch().value())`. -/
  | readEpoch (thread : Nat) (incarnation : IncarnationId) (now : TimePoint) (reason : String)
  /-- The second half of `begin_new_epoch`. -/
  | installEpoch (thread : Nat)
  | installAuthorityLine (incarnation : IncarnationId) (epoch : Epoch) (now : TimePoint)
      (reason : String)

namespace Threads

/-- No call is under way. -/
def start (e : Engine) : Threads := ⟨e, fun _ => none⟩

/-- The line in force. -/
def line (s : Threads) : IncarnationId × Epoch :=
  (s.engine.authority.incarnation, s.engine.authority.epoch)

/-- The thread is in the call, or in none. -/
def setCall (s : Threads) (thread : Nat) (call : Option EpochCall) : Threads :=
  { s with calls := Function.update s.calls thread call }

/-- What a critical section leaves behind, and what the call returns if it ends there. A
thread that is in a call does not start another one. -/
def enter (s : Threads) : CriticalSection → Threads × Option Status
  | .readEpoch thread incarnation now reason =>
    if (s.calls thread).isSome then (s, none)
    else
      match incrementChecked s.engine.authority.epoch with
      | none => (s, some (fail .boundsExceeded "authority epoch space exhausted"))
      | some _ =>
        (s.setCall thread (some { incarnation, now, reason, read := s.engine.authority.epoch }),
          none)
  | .installEpoch thread =>
    match s.calls thread with
    | none => (s, none)
    | some call =>
      let answer := s.engine.installAuthorityLine call.incarnation (call.read + 1) call.now
        call.reason
      ({ s.setCall thread none with engine := answer.1 }, some answer.2)
  | .installAuthorityLine incarnation epoch now reason =>
    let answer := s.engine.installAuthorityLine incarnation epoch now reason
    ({ s with engine := answer.1 }, some answer.2)

/-- The state after a critical section. -/
def next (s : Threads) (section_ : CriticalSection) : Threads := (s.enter section_).1

/-- The critical section ends a call, and the call succeeds. -/
def Succeeds (s : Threads) (section_ : CriticalSection) : Prop := (s.enter section_).2 = some (.ok ())

/-- The epoch to be installed is not in force: the epoch a `begin_new_epoch` has read is
still the one in force, and an `install_authority_line` is given another one. -/
def Current (s : Threads) : CriticalSection → Prop
  | .readEpoch _ _ _ _ => True
  | .installEpoch thread => ∀ call, s.calls thread = some call →
      call.read = s.engine.authority.epoch
  | .installAuthorityLine _ epoch _ _ => epoch ≠ s.engine.authority.epoch

/-- A sequential run of the two halves is the call itself. -/
theorem enter_sequential (s : Threads) (thread : Nat) (hidle : s.calls thread = none)
    (incarnation : IncarnationId) (now : TimePoint) (reason : String)
    (hroom : s.engine.authority.epoch < u64Max) :
    ((s.next (.readEpoch thread incarnation now reason)).next (.installEpoch thread)).engine =
      (s.engine.beginNewEpoch incarnation now reason).1 := by
  have hread : s.next (.readEpoch thread incarnation now reason) =
      s.setCall thread (some { incarnation, now, reason, read := s.engine.authority.epoch }) := by
    simp only [next, enter, hidle, incrementChecked_eq, if_pos hroom]
    rfl
  rw [hread]
  simp only [next, enter, setCall, Function.update_self, beginNewEpoch, incrementChecked_eq,
    if_pos hroom]

/-! ### One critical section -/

/-- A line is installed, and the epochs that were read are not ahead of it. -/
structure Lined (s : Threads) : Prop where
  installed : s.engine.authority.incarnation ≠ 0
  read : ∀ thread call, s.calls thread = some call → call.read ≤ s.engine.authority.epoch

/-- How a line is installed over a line that is in force. -/
theorem installAuthorityLine_line {e : Engine} (hline : e.authority.incarnation ≠ 0)
    (incarnation : IncarnationId) (epoch : Epoch) (now : TimePoint) (reason : String) :
    ((e.installAuthorityLine incarnation epoch now reason).1 = e ∧
        (e.installAuthorityLine incarnation epoch now reason).2 ≠ .ok ()) ∨
      (e.authority.incarnation < incarnation ∧ e.authority.epoch ≤ epoch ∧
        (e.installAuthorityLine incarnation epoch now reason).1.authority.incarnation =
          incarnation ∧
        (e.installAuthorityLine incarnation epoch now reason).1.authority.epoch = epoch) := by
  simp only [installAuthorityLine]
  cases hinstall : e.authority.installLine incarnation epoch now reason with
  | error err => exact Or.inl ⟨rfl, by simp⟩
  | ok authority =>
    obtain ⟨-, -, hadvances, hkeeps, rfl⟩ := AuthorityRegistry.installLine_eq_ok.mp hinstall
    exact Or.inr ⟨hadvances hline, hkeeps, rfl, rfl⟩

/-- What a critical section does to the line. -/
theorem next_cases (h : Lined s) (section_ : CriticalSection) :
    ((s.next section_).line = s.line ∧ ¬ s.Succeeds section_) ∨
      (s.line.1 < (s.next section_).line.1 ∧ s.line.2 ≤ (s.next section_).line.2 ∧
        (s.line.2 < (s.next section_).line.2 ↔ s.Current section_)) := by
  cases section_ with
  | readEpoch thread incarnation now reason =>
    refine Or.inl ?_
    simp only [next, Succeeds, enter]
    split_ifs
    · exact ⟨rfl, by simp⟩
    · cases incrementChecked s.engine.authority.epoch with
      | none => exact ⟨rfl, by simp⟩
      | some _ => exact ⟨rfl, by simp⟩
  | installEpoch thread =>
    simp only [next, Succeeds, enter, Current]
    cases hcall : s.calls thread with
    | none => exact Or.inl ⟨rfl, by simp⟩
    | some call =>
      rcases installAuthorityLine_line h.installed call.incarnation (call.read + 1) call.now
        call.reason with ⟨hsame, herr⟩ | ⟨hadvances, hkeeps, hincarnation, hepoch⟩
      · refine Or.inl ⟨?_, fun hok => herr (Option.some.inj hok)⟩
        simp only [line, hsame]
      · refine Or.inr ?_
        simp only [line, hincarnation, hepoch]
        refine ⟨hadvances, hkeeps, ?_⟩
        have hread := h.read thread call hcall
        constructor
        · rintro hlt _ hsome
          obtain rfl := Option.some.inj hsome
          exact Nat.le_antisymm hread (Nat.lt_succ_iff.mp hlt)
        · intro hcurrent
          rw [hcurrent call rfl]
          exact Nat.lt_succ_self _
  | installAuthorityLine incarnation epoch now reason =>
    simp only [next, Succeeds, enter, Current]
    rcases installAuthorityLine_line h.installed incarnation epoch now reason with
      ⟨hsame, herr⟩ | ⟨hadvances, hkeeps, hincarnation, hepoch⟩
    · refine Or.inl ⟨?_, fun hok => herr (Option.some.inj hok)⟩
      simp only [line, hsame]
    · refine Or.inr ?_
      simp only [line, hincarnation, hepoch]
      exact ⟨hadvances, hkeeps, fun hlt => Nat.ne_of_gt hlt,
        fun hne => Nat.lt_of_le_of_ne hkeeps (Ne.symm hne)⟩

/-- The calls under way after a critical section were under way before, or have read the
epoch just now. -/
theorem calls_next {section_ : CriticalSection} {thread : Nat} {call : EpochCall}
    (h : (s.next section_).calls thread = some call) :
    s.calls thread = some call ∨ call.read = s.engine.authority.epoch := by
  have hset : ∀ other status, (s.setCall other status).calls thread = some call →
      s.calls thread = some call ∨ status = some call := by
    intro other status hcall
    simp only [setCall] at hcall
    by_cases hthread : thread = other
    · rw [hthread, Function.update_self] at hcall
      exact Or.inr hcall
    · rw [Function.update_of_ne hthread] at hcall
      exact Or.inl hcall
  cases section_ with
  | readEpoch other incarnation now reason =>
    simp only [next, enter] at h
    split_ifs at h
    · exact Or.inl h
    · cases hnext : incrementChecked s.engine.authority.epoch with
      | none =>
        rw [hnext] at h
        exact Or.inl h
      | some _ =>
        rw [hnext] at h
        rcases hset _ _ h with hold | hnew
        · exact Or.inl hold
        · obtain rfl := Option.some.inj hnew
          exact Or.inr rfl
  | installEpoch other =>
    simp only [next, enter] at h
    cases hcall : s.calls other with
    | none =>
      rw [hcall] at h
      exact Or.inl h
    | some _ =>
      rw [hcall] at h
      rcases hset _ _ h with hold | hnew
      · exact Or.inl hold
      · cases hnew
  | installAuthorityLine => exact Or.inl h

theorem lined_next (h : Lined s) (section_ : CriticalSection) : Lined (s.next section_) := by
  have hepoch : s.line.2 ≤ (s.next section_).line.2 := by
    rcases next_cases h section_ with ⟨hsame, -⟩ | ⟨-, hkeeps, -⟩
    · rw [hsame]
    · exact hkeeps
  constructor
  · rcases next_cases h section_ with ⟨hsame, -⟩ | ⟨hadvances, -⟩
    · have hkept : (s.next section_).line.1 ≠ 0 := by
        rw [hsame]
        exact h.installed
      exact hkept
    · exact Nat.ne_of_gt (Nat.zero_lt_of_lt hadvances)
  · intro thread call hcall
    rcases calls_next hcall with hold | hread
    · exact (h.read thread call hold).trans hepoch
    · rw [hread]
      exact hepoch

/-! ### An interleaving -/

variable {e : Engine}

theorem lined_run (hline : e.authority.incarnation ≠ 0) (schedule : List CriticalSection) :
    Lined (run next (start e) schedule) := by
  have hstart : Lined (start e) := ⟨hline, fun _ _ h => by cases h⟩
  exact run_invariant (P := Lined) (C := fun _ _ => True)
    (fun s section_ h _ => lined_next h section_) hstart (always_of_forall (fun _ _ _ => trivial) _)

/-- The epoch does not fall from one point of an interleaving to a later one. -/
theorem epoch_le_run (h : Lined s) (schedule : List CriticalSection) :
    s.line.2 ≤ (run next s schedule).line.2 := by
  induction schedule generalizing s with
  | nil => exact le_rfl
  | cons section_ rest ih =>
    refine le_trans ?_ (ih (lined_next h section_))
    rcases next_cases h section_ with ⟨hsame, -⟩ | ⟨-, hkeeps, -⟩
    · rw [hsame]
    · exact hkeeps

end Threads

open Threads

/-- In every interleaving over an installed line, a call that succeeds advances both the
incarnation and the epoch exactly when the epoch it installs is not in force: when the
epoch `begin_new_epoch` has read is still in force, and `install_authority_line` is given
another one than that in force. If every call is made so, two successful calls leave
different epochs. -/
theorem line_advances_iff {e : Engine} (hline : e.authority.incarnation ≠ 0) :
    (∀ schedule section_, (run next (start e) schedule).Succeeds section_ →
      ((run next (start e) schedule).line.1 < (run next (start e) (schedule ++ [section_])).line.1 ∧
          (run next (start e) schedule).line.2 <
            (run next (start e) (schedule ++ [section_])).line.2 ↔
        (run next (start e) schedule).Current section_)) ∧
    ∀ earlier first between second,
      Always next Current (start e) (earlier ++ first :: between ++ [second]) →
      (run next (start e) earlier).Succeeds first →
      (run next (start e) (earlier ++ first :: between)).Succeeds second →
      (run next (start e) (earlier ++ [first])).line.2 ≠
        (run next (start e) (earlier ++ first :: between ++ [second])).line.2 := by
  constructor
  · intro schedule section_ hok
    rw [run_concat]
    rcases next_cases (lined_run hline schedule) section_ with ⟨-, hnot⟩ | ⟨hadvances, -, hiff⟩
    · exact absurd hok hnot
    · rw [hiff]
      exact and_iff_right hadvances
  · intro earlier first between second halways _ hsecond
    have hrest : run next (start e) (earlier ++ first :: between) =
        run next (run next (start e) (earlier ++ [first])) between := by
      rw [← run_append, List.append_assoc, List.singleton_append]
    have hmonotone := epoch_le_run (lined_run hline (earlier ++ [first])) between
    rw [← hrest] at hmonotone
    rcases next_cases (lined_run hline (earlier ++ first :: between)) second with
      ⟨-, hnot⟩ | ⟨-, -, hiff⟩
    · exact absurd hsecond hnot
    · have hlt := hiff.mpr halways.at_split
      rw [run_concat (start e) (earlier ++ first :: between)]
      exact Nat.ne_of_lt (hmonotone.trans_lt hlt)

namespace OnePort

/-- An engine on its first line. -/
def lined : Engine := run Engine.perform (Engine.init {}) [.call (.installIncarnation 1 1)]

/-- Two threads read the epoch before one of them installs the next one. -/
def twoReaders : List CriticalSection :=
  [.readEpoch 1 2 1 "failover", .readEpoch 2 3 1 "failover", .installEpoch 1]

end OnePort

/-- One thread that is not overtaken. -/
theorem line_advances_iff_alone :
    (run next (start OnePort.lined) [.readEpoch 1 2 1 "failover"]).Succeeds (.installEpoch 1) ∧
      ((run next (start OnePort.lined) [.readEpoch 1 2 1 "failover"]).line.1 <
          (run next (start OnePort.lined) [.readEpoch 1 2 1 "failover", .installEpoch 1]).line.1 ∧
        (run next (start OnePort.lined) [.readEpoch 1 2 1 "failover"]).line.2 <
          (run next (start OnePort.lined) [.readEpoch 1 2 1 "failover", .installEpoch 1]).line.2 ↔
        (run next (start OnePort.lined) [.readEpoch 1 2 1 "failover"]).Current
          (.installEpoch 1)) := by
  have hok : (run next (start OnePort.lined) [.readEpoch 1 2 1 "failover"]).Succeeds
      (.installEpoch 1) := by
    unfold Succeeds
    decide +kernel
  exact ⟨hok, (line_advances_iff (by decide +kernel)).1 _ _ hok⟩

/-- The second thread succeeds as well and installs the epoch that is in force. -/
theorem line_repeats_epoch :
    (run next (start OnePort.lined) OnePort.twoReaders).Succeeds (.installEpoch 2) ∧
      (run next (start OnePort.lined) OnePort.twoReaders).line = (2, 2) ∧
      (run next (start OnePort.lined) (OnePort.twoReaders ++ [.installEpoch 2])).line = (3, 2) := by
  unfold Succeeds
  decide +kernel

end DrainFabric
