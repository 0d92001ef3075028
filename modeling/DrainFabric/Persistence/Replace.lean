import DrainFabric.Persistence

/-!
# What a save leaves

The operations of a save on the files, one rule for each way an operation can go
(`attempt_rule`). How far a save comes is read off its faults: `Writes`, `Proceeds`,
`Installs`, `Unlinks`.

* `installed`, `rotated` — the two phases after the temporary file is written;
* `replaced` — the files after a save, wherever it stopped;
* `live_of_replace` — after a save that succeeded the live file holds what was written.
-/

namespace DrainFabric

variable {α β : Type} {bytes : List UInt8}

theorem Fs.bind_apply (x : Fs α) (f : α → Fs β) (disk : Disk) :
    (x >>= f) disk = andThen (x disk) f := rfl

theorem Fs.pure_apply (a : α) (disk : Disk) : (pure a : Fs α) disk = (disk, some a) := rfl

theorem Fs.andThen_of_some {out : Disk × Option α} {a : α} (h : out.2 = some a) (f : α → Fs β) :
    Fs.andThen out f = f a out.1 := by
  obtain ⟨disk, result⟩ := out
  obtain rfl : result = some a := h
  rfl

/-- The rule of one operation: the process stops before it, it fails, or it is done. -/
theorem attempt_rule {faults : Faults} {op : SaveOp} {effect broken : Disk → Disk}
    {f : Bool → Fs α} {disk : Disk} {P : Disk × Option α → Prop}
    (hstop : faults.stop = some op → P (disk, none))
    (hfail : faults.stop ≠ some op → faults.fails op = true → P (f false (broken disk)))
    (hdone : faults.stop ≠ some op → faults.fails op = false → P (f true (effect disk))) :
    P ((attempt faults op effect broken >>= f) disk) := by
  rw [Fs.bind_apply, attempt]
  split_ifs with h h'
  · exact hstop h
  · exact hfail h h'
  · exact hdone h (Bool.eq_false_of_not_eq_true h')

namespace Faults

variable (f : Faults)

/-- The operation is done, when the save comes to it. -/
def Does (op : SaveOp) : Prop := f.stop ≠ some op ∧ f.fails op = false

/-- The operation fails, when the save comes to it. -/
def Misses (op : SaveOp) : Prop := f.stop ≠ some op ∧ f.fails op = true

/-- The temporary file is written. -/
def Writes : Prop := f.stop ≠ some .removeTemporary ∧ f.Does .writeTemporary

/-- With a live file there, the save comes to installing the new one. -/
def Proceeds : Prop :=
  f.Misses .checkLive ∨ f.Does .checkLive ∧ f.stop ≠ some .removeBackup ∧ f.Does .copyBackup

/-- The temporary file becomes the live file. -/
def Installs : Prop :=
  f.Does .rename ∨ f.Misses .rename ∧ f.stop ≠ some .removeLive ∧ f.Does .renameAgain

/-- The live file is removed to make room. -/
def Unlinks : Prop := f.Misses .rename ∧ f.Does .removeLive

instance (op : SaveOp) : Decidable (f.Does op) := inferInstanceAs (Decidable (_ ∧ _))

instance (op : SaveOp) : Decidable (f.Misses op) := inferInstanceAs (Decidable (_ ∧ _))

instance : Decidable f.Writes := inferInstanceAs (Decidable (_ ∧ _))

instance : Decidable f.Proceeds := inferInstanceAs (Decidable (_ ∨ _))

instance : Decidable f.Installs := inferInstanceAs (Decidable (_ ∨ _))

instance : Decidable f.Unlinks := inferInstanceAs (Decidable (_ ∧ _))

end Faults

namespace Persistence

variable {faults : Faults} {disk : Disk}

/-- What installing does to the files, and whether it succeeded. -/
structure Installed (faults : Faults) (disk : Disk) (out : Disk × Option Bool) : Prop where
  backup : out.1.backup = disk.backup
  succeeds : out.2 = some true ↔ faults.Installs
  installs : faults.Installs → out.1.live = disk.temporary
  unlinks : ¬ faults.Installs → faults.Unlinks → out.1.live = none
  keeps : ¬ faults.Installs → ¬ faults.Unlinks → out.1.live = disk.live

section

-- Each case of a phase evaluates the conditions and the operations on the files.
attribute [local simp] Faults.Does Faults.Misses Faults.Installs Faults.Unlinks Faults.Proceeds
  Fs.pure_apply Disk.removeLive Disk.removeBackup Disk.removeTemporary Disk.rename Disk.copy
  Disk.setBackup

theorem installed (faults : Faults) (disk : Disk) :
    Installed faults disk (install faults disk) := by
  rw [install]
  refine attempt_rule (fun hstop => ?_) (fun hstop hfail => ?_) (fun hstop hdone => ?_)
  · constructor <;> simp [hstop]
  · refine attempt_rule (fun hstop' => ?_) (fun hstop' hfail' => ?_) (fun hstop' hdone' => ?_)
    · constructor <;> simp [hfail, hstop']
    all_goals
      refine attempt_rule (fun h => ?_) (fun h h' => ?_) (fun h h' => ?_)
      · constructor <;> simp [*]
      · refine attempt_rule (fun hlast => ?_) (fun hlast hlast' => ?_) (fun hlast hlast' => ?_)
        all_goals constructor <;> simp [*]
      · constructor <;> simp [*]
  · constructor <;> simp [hstop, hdone]

/-- The backup after the previous live file was rotated, or was about to be. -/
def rotatedBackup (faults : Faults) (disk : Disk) : Option (List UInt8) :=
  if faults.Does .checkLive ∧ faults.stop ≠ some .removeBackup then
    if faults.Does .copyBackup then disk.live
    else if faults.Misses .copyBackup then faults.left .copyBackup
    else if faults.fails .removeBackup then disk.backup
    else none
  else disk.backup

/-- What rotating does to the files, and whether the save goes on. -/
structure Rotated (faults : Faults) (disk : Disk) (out : Disk × Option Bool) : Prop where
  live : out.1.live = disk.live
  proceeds : out.2 = some true ↔ faults.Proceeds
  temporary : faults.Proceeds → out.1.temporary = disk.temporary
  backup : out.1.backup = rotatedBackup faults disk

theorem existsLive_rule {f : Bool → Fs α} {P : Disk × Option α → Prop}
    (hstop : faults.stop = some .checkLive → P (disk, none))
    (hfail : faults.stop ≠ some .checkLive → faults.fails .checkLive = true → P (f false disk))
    (hdone : faults.stop ≠ some .checkLive → faults.fails .checkLive = false →
      P (f disk.live.isSome disk)) : P ((existsLive faults >>= f) disk) := by
  rw [Fs.bind_apply, existsLive]
  refine attempt_rule (P := fun out : Disk × Option Bool => P (Fs.andThen out f)) hstop
    (fun h h' => ?_) (fun h h' => ?_)
  · exact hfail h h'
  · exact hdone h h'

attribute [local simp] rotatedBackup in
theorem rotated (hlive : disk.live.isSome = true) : Rotated faults disk (rotate faults disk) := by
  rw [rotate]
  refine existsLive_rule (fun hstop => ?_) (fun hstop hfail => ?_) (fun hstop hdone => ?_)
  · constructor <;> simp [hstop]
  · constructor <;> simp [hstop, hfail]
  · rw [hlive, if_pos rfl]
    refine attempt_rule (fun hstop' => ?_) (fun hstop' hfail' => ?_) (fun hstop' hdone' => ?_)
    · constructor <;> simp [hdone, hstop']
    all_goals
      refine attempt_rule (fun h => ?_) (fun h h' => ?_) (fun h h' => ?_)
      · constructor <;> simp [*]
      · refine attempt_rule (fun hlast => ?_) (fun hlast hlast' => ?_) (fun hlast hlast' => ?_)
        all_goals constructor <;> simp [*]
      · constructor <;> simp [*]

end

/-- The files after a save, wherever it stopped. -/
structure Replaced (faults : Faults) (bytes : List UInt8) (disk after : Disk) : Prop where
  installs : faults.Writes → faults.Proceeds → faults.Installs → after.live = some bytes
  unlinks : faults.Writes → faults.Proceeds → ¬ faults.Installs → faults.Unlinks → after.live = none
  keeps : ¬ (faults.Writes ∧ faults.Proceeds ∧ (faults.Installs ∨ faults.Unlinks)) →
    after.live = disk.live
  backup : after.backup = if faults.Writes then rotatedBackup faults disk else disk.backup

/-- Answering after a phase that did not succeed leaves the files as they are. -/
theorem disk_andThen_of_ne {out : Disk × Option Bool} (h : out.2 ≠ some true) (x : Fs α) (a : α) :
    (Fs.andThen out (fun ok => if ok then x else pure a)).1 = out.1 := by
  rcases out with ⟨disk, _ | _ | _⟩
  · rfl
  · rfl
  · exact absurd rfl h

theorem replaced_commit (hlive : disk.live.isSome = true)
    (htemporary : disk.temporary = some bytes) (hwrites : faults.Writes) :
    Replaced faults bytes disk (commit faults disk).1 := by
  have hrot : Rotated faults disk (rotate faults disk) := rotated hlive
  rw [commit, Fs.bind_apply]
  by_cases hproceeds : faults.Proceeds
  · have hinst := installed faults (rotate faults disk).1
    rw [Fs.andThen_of_some (hrot.proceeds.mpr hproceeds), if_pos rfl, Fs.bind_apply]
    have hout : ∀ a b : Status, (Fs.andThen (install faults (rotate faults disk).1)
        (fun ok => if ok then (pure a : Fs Status) else pure b)).1 =
          (install faults (rotate faults disk).1).1 := by
      intro a b
      rcases install faults (rotate faults disk).1 with ⟨d, _ | _ | _⟩ <;> rfl
    rw [hout]
    refine ⟨fun _ _ h => ?_, fun _ _ h h' => hinst.unlinks h h', fun h => ?_, ?_⟩
    · rw [hinst.installs h, hrot.temporary hproceeds, htemporary]
    · rw [hinst.keeps (fun hi => h ⟨hwrites, hproceeds, Or.inl hi⟩)
        (fun hu => h ⟨hwrites, hproceeds, Or.inr hu⟩), hrot.live]
    · rw [hinst.backup, if_pos hwrites, hrot.backup]
  · rw [disk_andThen_of_ne (fun h => hproceeds (hrot.proceeds.mp h))]
    refine ⟨fun _ h => absurd h hproceeds, fun _ h => absurd h hproceeds, fun _ => hrot.live, ?_⟩
    rw [if_pos hwrites, hrot.backup]

/-- The temporary file a save starts with does not matter. -/
theorem Replaced.congr {disk' after : Disk} (h : Replaced faults bytes disk' after)
    (hlive : disk'.live = disk.live) (hbackup : disk'.backup = disk.backup) :
    Replaced faults bytes disk after where
  installs := h.installs
  unlinks := h.unlinks
  keeps hnot := (h.keeps hnot).trans hlive
  backup := by rw [h.backup, rotatedBackup, rotatedBackup, hlive, hbackup]

theorem replaced_of_not_writes {after : Disk} (h : ¬ faults.Writes)
    (hlive : after.live = disk.live) (hbackup : after.backup = disk.backup) :
    Replaced faults bytes disk after :=
  ⟨fun hw => absurd hw h, fun hw => absurd hw h, fun _ => hlive, by rw [if_neg h, hbackup]⟩

theorem replaced (hlive : disk.live.isSome = true) (bytes : List UInt8) :
    Replaced faults bytes disk (replace faults bytes disk).1 := by
  have hwrite : ∀ start : Disk, start.live = disk.live → start.backup = disk.backup →
      faults.stop ≠ some .removeTemporary →
      Replaced faults bytes disk ((attempt faults .writeTemporary (Disk.write bytes)
        (Disk.write (faults.left .writeTemporary)) >>= fun ok => if ok then commit faults
          else pure (fail .persistenceIo (faults.message .writeTemporary))) start).1 := by
    intro start hstart hbackup hfirst
    refine attempt_rule (P := fun out => Replaced faults bytes disk out.1) (fun hstop => ?_)
      (fun hstop hfail => ?_) (fun hstop hdone => ?_)
    · exact replaced_of_not_writes (fun h => h.2.1 hstop) hstart hbackup
    · exact replaced_of_not_writes (fun h => by simp [h.2.2] at hfail) hstart hbackup
    · have hwrites : faults.Writes := ⟨hfirst, hstop, hdone⟩
      have hthere : (start.write bytes).live.isSome = true := by
        rw [Disk.write, hstart]
        exact hlive
      exact (replaced_commit hthere rfl hwrites).congr hstart hbackup
  rw [replace]
  refine attempt_rule (P := fun out => Replaced faults bytes disk out.1) (fun hstop => ?_)
    (fun hstop hfail => ?_) (fun hstop hdone => ?_)
  · exact replaced_of_not_writes (fun h => h.1 hstop) rfl rfl
  · exact hwrite _ rfl rfl hstop
  · exact hwrite _ rfl rfl hstop

/-! ### A save that succeeded -/

theorem temporary_of_rotate (h : (rotate faults disk).2 = some true) :
    (rotate faults disk).1.temporary = disk.temporary := by
  revert h
  rw [rotate]
  refine existsLive_rule (P := fun out => out.2 = some true → out.1.temporary = disk.temporary)
    (fun hstop => ?_) (fun hstop hfail => ?_) (fun hstop hdone => ?_)
  · exact fun _ => rfl
  · exact fun _ => rfl
  · split_ifs
    · refine attempt_rule (P := fun out => out.2 = some true → out.1.temporary = disk.temporary)
        (fun _ _ => rfl) (fun _ _ => ?_) (fun _ _ => ?_)
      all_goals
        refine attempt_rule (P := fun out => out.2 = some true → out.1.temporary = disk.temporary)
          (fun _ _ => rfl) (fun _ _ => ?_) (fun _ _ _ => rfl)
        refine attempt_rule (P := fun out => out.2 = some true → out.1.temporary = disk.temporary)
          (fun _ h => ?_) (fun _ _ h => ?_) (fun _ _ h => ?_) <;> cases h
    · exact fun _ => rfl

/-- A process that was not stopped came through its first part. -/
theorem Fs.some_of_bind {x : Fs α} {f : α → Fs β} {b : β} (h : ((x >>= f) disk).2 = some b) :
    ∃ a, (x disk).2 = some a ∧ (x >>= f) disk = f a (x disk).1 := by
  rw [Fs.bind_apply] at h ⊢
  generalize x disk = out at h ⊢
  rcases out with ⟨d, _ | a⟩
  · cases h
  · exact ⟨a, rfl, rfl⟩

theorem live_of_commit (htemporary : disk.temporary = some bytes)
    (h : (commit faults disk).2 = some (.ok ())) : (commit faults disk).1.live = some bytes := by
  rw [commit] at h ⊢
  obtain ⟨rotates, hrotates, hnext⟩ := Fs.some_of_bind h
  rw [hnext] at h ⊢
  cases rotates with
  | false => cases h
  | true =>
    obtain ⟨installs, hinstalls, hlast⟩ := Fs.some_of_bind h
    have hinst := installed faults (rotate faults disk).1
    cases installs with
    | false =>
      rw [if_pos rfl, hlast] at h
      cases h
    | true =>
      rw [if_pos rfl, hlast]
      show (install faults (rotate faults disk).1).1.live = some bytes
      rw [hinst.installs (hinst.succeeds.mp hinstalls), temporary_of_rotate hrotates, htemporary]

/-- After a save that succeeded the live file holds what was written. -/
theorem live_of_replace (h : (replace faults bytes disk).2 = some (.ok ())) :
    (replace faults bytes disk).1.live = some bytes := by
  revert h
  rw [replace]
  have hwrite : ∀ start : Disk, ((attempt faults .writeTemporary (Disk.write bytes)
      (Disk.write (faults.left .writeTemporary)) >>= fun ok => if ok then commit faults
        else pure (fail .persistenceIo (faults.message .writeTemporary))) start).2 =
          some (.ok ()) →
      ((attempt faults .writeTemporary (Disk.write bytes)
        (Disk.write (faults.left .writeTemporary)) >>= fun ok => if ok then commit faults
          else pure (fail .persistenceIo (faults.message .writeTemporary))) start).1.live =
          some bytes := by
    intro start
    refine attempt_rule (P := fun out : Disk × Option Status =>
      out.2 = some (.ok ()) → out.1.live = some bytes)
      (fun _ h => ?_) (fun _ _ h => ?_) (fun _ _ h => live_of_commit rfl h) <;> cases h
  refine attempt_rule (P := fun out : Disk × Option Status =>
    out.2 = some (.ok ()) → out.1.live = some bytes)
    (fun _ h => ?_) (fun _ _ => hwrite _) (fun _ _ => hwrite _)
  cases h

/-- A save that nothing happens to. -/
theorem replace_of_no_faults (bytes : List UInt8) (disk : Disk) :
    replace {} bytes disk =
      ({ live := some bytes, backup := disk.live.or disk.backup, temporary := none },
        some (.ok ())) := by
  obtain ⟨_ | live, backup, temporary⟩ := disk <;> rfl

end Persistence

end DrainFabric
