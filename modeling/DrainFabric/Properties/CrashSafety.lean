import DrainFabric.Properties.SavedLoads

/-!
# What is on disk when a save is interrupted

A save replaces the live file in a way that some operation can always fail, and the
process stop, between two operations. Usually the snapshot that was there or the new one
is still loaded. Two paths lose both:

* `rename` fails, the live file is removed to make room, and the second `rename` does not
  come or fails too: `load` gives up on a missing live file without a look at the backup;
* the live file is rejected and the snapshot is loaded from the backup, which a save
  removes or overwrites with the rejected file before the new one is in place.

`crash_safe_iff` says that these are all.
-/

namespace DrainFabric

open Lib

/-- The snapshot that was loaded, without where it was found. -/
def contents (found : JsonValue × SnapshotInfo) : JsonValue × SnapshotInfo :=
  (found.1, { found.2 with fromBackup := false, source := "" })

namespace Persistence

variable {reals : RealText} {p : Persistence}

/-- The snapshot a file holds. -/
def holds (reals : RealText) (p : Persistence) (content : Option (List UInt8)) :
    Option (JsonValue × SnapshotInfo) :=
  (p.readFile reals p.path content false).toOption.map contents

/-- The same snapshot is read under any name. -/
theorem contents_readFile (file : String) (content : Option (List UInt8)) (fromBackup : Bool) :
    (p.readFile reals file content fromBackup).toOption.map contents = p.holds reals content := by
  cases content with
  | none => rfl
  | some bytes =>
    simp only [holds, readFile, readWholeFile, orFail, ok_bind]
    cases rejectIf (bytes.length > (p.maxSnapshotBytes + snapshotOverheadBytes) % 2 ^ 64)
      .boundsExceeded "snapshot file exceeds the configured bound" with
    | error err => rfl
    | ok _ =>
      simp only [ok_bind, pure_bind]
      cases p.checkFile bytes with
      | error err => rfl
      | ok _ =>
        simp only [ok_bind]
        cases jsonParse reals (textOf ((bytes.drop snapshotHeaderBytes).take
          (getU64 bytes 32))) { maxTotalBytes := p.maxSnapshotBytes } with
        | error err => rfl
        | ok value => rfl

/-- A refusal that is not about a missing file. -/
def Refuses {α : Type} (x : Result α) : Prop := ∀ err, x = .error err → err.code ≠ .notFound

theorem refuses_bind {α β : Type} {x : Result α} {f : α → Result β} (hx : Refuses x)
    (hf : ∀ a, Refuses (f a)) : Refuses (x >>= f) := by
  intro err h
  cases x with
  | error err' =>
    cases h
    exact hx _ rfl
  | ok a => exact hf a err h

theorem refuses_rejectIf {condition : Prop} [Decidable condition] {code : ErrorCode}
    {message : String} (hcode : code ≠ .notFound) : Refuses (rejectIf condition code message) := by
  intro err h
  unfold rejectIf at h
  split_ifs at h
  cases h
  exact hcode

theorem refuses_checkFile (bytes : List UInt8) : Refuses (p.checkFile bytes) := by
  unfold checkFile
  repeat' first
    | exact refuses_rejectIf (by decide)
    | refine refuses_bind (refuses_rejectIf (by decide)) (fun _ => ?_)

/-- A file that is there is never reported as missing. -/
theorem refuses_readFile (file : String) (bytes : List UInt8) (fromBackup : Bool) :
    Refuses (p.readFile reals file (some bytes) fromBackup) := by
  have hwhole : Refuses (readWholeFile file (some bytes)
      ((p.maxSnapshotBytes + snapshotOverheadBytes) % 2 ^ 64)) :=
    refuses_bind (fun err h => by cases h)
      (fun _ => refuses_bind (refuses_rejectIf (by decide)) (fun _ err h => by cases h))
  refine refuses_bind hwhole (fun _ => refuses_bind (refuses_checkFile _) (fun _ =>
    refuses_bind (fun err h => ?_) (fun _ err h => by cases h)))
  revert h
  cases jsonParse reals _ _ with
  | error err' =>
    intro h
    cases h
    exact (by decide : ErrorCode.persistenceCorrupt ≠ .notFound)
  | ok value =>
    intro h
    cases h

/-- What `load` returns, file by file. -/
theorem contents_load (disk : Disk) :
    (p.load reals disk).toOption.map contents =
      if disk.live = none then none
      else (p.holds reals disk.live).or (p.holds reals disk.backup) := by
  rw [← contents_readFile p.path disk.live false, ← contents_readFile p.backupPath disk.backup true,
    load]
  cases hlive : disk.live with
  | none => rfl
  | some bytes =>
    rw [if_neg (by simp)]
    cases hread : p.readFile reals p.path (some bytes) false with
    | ok found => rfl
    | error err =>
      rw [show (Except.error err : Result (JsonValue × SnapshotInfo)).toOption = none from rfl,
        Option.map_none, Option.none_or]
      dsimp only
      rw [if_neg (refuses_readFile p.path bytes false err hread)]
      cases p.readFile reals p.backupPath disk.backup true with
      | ok found => rfl
      | error err' => rfl

theorem exists_ok_iff {x : Result (JsonValue × SnapshotInfo)}
    {Q : JsonValue × SnapshotInfo → Prop} :
    (∃ found, x = .ok found ∧ Q (contents found)) ↔
      ∃ snapshot, x.toOption.map contents = some snapshot ∧ Q snapshot := by
  cases x with
  | error err => simp [Except.toOption]
  | ok found => simp [Except.toOption]

end Persistence

namespace Faults

variable (f : Faults)

/-- The save removes the live file, and does not get the new one in its place. -/
def LosesLive : Prop := f.Writes ∧ f.Proceeds ∧ ¬ f.Installs ∧ f.Unlinks

/-- The save comes to the backup. -/
def Rotates : Prop := f.Writes ∧ f.Does .checkLive ∧ f.stop ≠ some .removeBackup

theorem stop_of_neither {op : SaveOp} (hdoes : ¬ f.Does op) (hmisses : ¬ f.Misses op) :
    f.stop = some op := by
  by_contra hstop
  cases hfails : f.fails op with
  | false => exact hdoes ⟨hstop, hfails⟩
  | true => exact hmisses ⟨hstop, hfails⟩

/-- The backup is still what it was, or what is left of it is good. -/
def KeepsBackup (good : Option (List UInt8) → Prop) : Prop :=
  ¬ f.Rotates ∨ (f.stop = some .copyBackup ∧ f.fails .removeBackup = true) ∨
    (f.Misses .copyBackup ∧ good (f.left .copyBackup))

end Faults

namespace Persistence

variable {reals : RealText} {p : Persistence} {faults : Faults} {disk after : Disk}
  {bytes : List UInt8} {s n : JsonValue × SnapshotInfo}

/-- The file holds the snapshot before or the snapshot after. -/
def HoldsEither (reals : RealText) (p : Persistence) (s n : JsonValue × SnapshotInfo)
    (content : Option (List UInt8)) : Prop :=
  ∃ snapshot, p.holds reals content = some snapshot ∧ (snapshot = s ∨ snapshot = n)

/-- When the snapshot was in the backup, what a save did to the backup decides. -/
theorem holdsEither_rotatedBackup (hlive : p.holds reals disk.live = none)
    (hbackup : p.holds reals disk.backup = some s) :
    p.HoldsEither reals s n (if faults.Writes then rotatedBackup faults disk else disk.backup) ↔
      faults.KeepsBackup (p.HoldsEither reals s n) := by
  have hkept : p.HoldsEither reals s n disk.backup := ⟨s, hbackup, Or.inl rfl⟩
  have hnone : ¬ p.HoldsEither reals s n none := by
    rintro ⟨snapshot, hnone, -⟩
    cases hnone
  have hrejected : ¬ p.HoldsEither reals s n disk.live := by
    rintro ⟨snapshot, hsome, -⟩
    rw [hlive] at hsome
    cases hsome
  by_cases hrotates : faults.Rotates
  · rw [if_pos hrotates.1, rotatedBackup, if_pos hrotates.2]
    split_ifs with hdoes hmisses hfails
    · refine iff_of_false hrejected ?_
      rintro (hnot | ⟨hstop, -⟩ | ⟨hmiss, -⟩)
      · exact hnot hrotates
      · exact hdoes.1 hstop
      · exact absurd hdoes.2 (by rw [hmiss.2]; decide)
    · refine ⟨fun h => Or.inr (Or.inr ⟨hmisses, h⟩), ?_⟩
      rintro (hnot | ⟨hstop, -⟩ | ⟨-, h⟩)
      · exact absurd hrotates hnot
      · exact absurd hstop hmisses.1
      · exact h
    · have hstop := faults.stop_of_neither hdoes hmisses
      exact iff_of_true hkept (Or.inr (Or.inl ⟨hstop, hfails⟩))
    · refine iff_of_false hnone ?_
      rintro (hnot | ⟨-, hfails'⟩ | ⟨hmiss, -⟩)
      · exact hnot hrotates
      · exact hfails hfails'
      · exact hmisses hmiss
  · refine iff_of_true ?_ (Or.inl hrotates)
    split_ifs with hwrites
    · rwa [rotatedBackup, if_neg (fun h => hrotates ⟨hwrites, h⟩)]
    · exact hkept

/-- What is loaded after a save, from what was loaded before. -/
theorem loads_either_iff (hthere : disk.live ≠ none)
    (hload : (p.holds reals disk.live).or (p.holds reals disk.backup) = some s)
    (hnew : p.holds reals (some bytes) = some n) (hafter : Replaced faults bytes disk after) :
    (∃ snapshot, (if after.live = none then none
        else (p.holds reals after.live).or (p.holds reals after.backup)) = some snapshot ∧
        (snapshot = s ∨ snapshot = n)) ↔
      (faults.Writes ∧ faults.Proceeds ∧ faults.Installs) ∨
        ¬ faults.LosesLive ∧ ((p.readFile reals p.path disk.live false).isOk = true ∨
          faults.KeepsBackup (p.HoldsEither reals s n)) := by
  by_cases hinstalls : faults.Writes ∧ faults.Proceeds ∧ faults.Installs
  · refine iff_of_true ⟨n, ?_, Or.inr rfl⟩ (Or.inl hinstalls)
    rw [hafter.installs hinstalls.1 hinstalls.2.1 hinstalls.2.2, if_neg (by simp), hnew,
      Option.some_or]
  by_cases hloses : faults.LosesLive
  · obtain ⟨hwrites, hproceeds, hnot, hunlinks⟩ := hloses
    rw [hafter.unlinks hwrites hproceeds hnot hunlinks, if_pos rfl]
    refine iff_of_false ?_ ?_
    · rintro ⟨snapshot, hnone, -⟩
      cases hnone
    · rintro (h | ⟨h, -⟩)
      · exact hnot h.2.2
      · exact h ⟨hwrites, hproceeds, hnot, hunlinks⟩
  -- the live file is still the one that was there
  have hlive : after.live = disk.live := by
    refine hafter.keeps (fun ⟨hwrites, hproceeds, h⟩ => ?_)
    rcases h with h | h
    · exact hinstalls ⟨hwrites, hproceeds, h⟩
    · exact hloses ⟨hwrites, hproceeds, fun hi => hinstalls ⟨hwrites, hproceeds, hi⟩, h⟩
  rw [hlive, if_neg hthere]
  cases hholds : p.holds reals disk.live with
  | some snapshot =>
    rw [hholds, Option.some_or] at hload
    have hok : (p.readFile reals p.path disk.live false).isOk = true := by
      rw [holds] at hholds
      cases hread : p.readFile reals p.path disk.live false with
      | error err => simp [hread, Except.toOption] at hholds
      | ok found => rfl
    exact iff_of_true ⟨snapshot, Option.some_or, Or.inl (Option.some.inj hload)⟩
      (Or.inr ⟨hloses, Or.inl hok⟩)
  | none =>
    rw [hholds, Option.none_or] at hload
    have hbad : (p.readFile reals p.path disk.live false).isOk ≠ true := by
      rw [holds] at hholds
      cases hread : p.readFile reals p.path disk.live false with
      | error err => simp [Except.isOk, Except.toBool]
      | ok found => simp [hread, Except.toOption] at hholds
    rw [Option.none_or, hafter.backup]
    exact (holdsEither_rotatedBackup hholds hload).trans
      ⟨fun h => Or.inr ⟨hloses, Or.inr h⟩, fun h =>
        (h.resolve_left hinstalls).2.resolve_left hbad⟩

/-- What `save` answers does not change the files. -/
theorem disk_save (p : Persistence) (sequence : Nat) (x : Fs Status) :
    ((x >>= fun outcome => match outcome with
      | .error err => (pure (p, .error err) : Fs (Persistence × Status))
      | .ok () => pure ({ p with writtenSequence := sequence }, .ok ())) disk).1 = (x disk).1 := by
  rw [Fs.bind_apply]
  rcases x disk with ⟨d, _ | _ | _⟩ <;> rfl

end Persistence

/-- Whatever operations of a save fail and wherever it stops: the snapshot that was loaded
before, or the new one, is loaded afterwards exactly when the new file was installed, or
the live file was not removed and either it is the one that was loaded or the backup was
kept. -/
theorem crash_safe_iff {reals : RealText} {p : Persistence} {faults : Faults} {disk : Disk}
    {value : JsonValue} {incarnation : IncarnationId} {sequence : Nat} {bytes : List UInt8}
    {s n : JsonValue × SnapshotInfo} (hs : p.load reals disk = .ok s)
    (himage : p.image reals value incarnation = .ok (sequence, bytes))
    (hn : p.readFile reals p.path (some bytes) false = .ok n) :
    (∃ found, p.load reals (p.save reals faults value incarnation disk).1 = .ok found ∧
        (contents found = contents s ∨ contents found = contents n)) ↔
      (faults.Writes ∧ faults.Proceeds ∧ faults.Installs) ∨
        ¬ faults.LosesLive ∧
          ((p.readFile reals p.path disk.live false).isOk = true ∨
            faults.KeepsBackup (fun left => ∃ t, p.readFile reals p.backupPath left true = .ok t ∧
              (contents t = contents s ∨ contents t = contents n))) := by
  have hload : (if disk.live = none then none
      else (p.holds reals disk.live).or (p.holds reals disk.backup)) = some (contents s) := by
    rw [← Persistence.contents_load, hs]
    rfl
  have hthere : disk.live ≠ none := fun hnone => by simp [hnone] at hload
  rw [if_neg hthere] at hload
  have hnew : p.holds reals (some bytes) = some (contents n) := by
    rw [Persistence.holds, hn]
    rfl
  have hgood : (fun left => ∃ t, p.readFile reals p.backupPath left true = .ok t ∧
      (contents t = contents s ∨ contents t = contents n)) =
        p.HoldsEither reals (contents s) (contents n) := by
    funext left
    rw [Persistence.HoldsEither, ← Persistence.contents_readFile p.backupPath left true]
    exact propext (Persistence.exists_ok_iff
      (Q := fun snapshot => snapshot = contents s ∨ snapshot = contents n))
  have hsaved : (p.save reals faults value incarnation disk).1 =
      (Persistence.replace faults bytes disk).1 := by
    rw [Persistence.save, himage]
    exact Persistence.disk_save p sequence _
  have hafter : Persistence.Replaced faults bytes disk
      (p.save reals faults value incarnation disk).1 := by
    rw [hsaved]
    exact Persistence.replaced (Option.isSome_iff_ne_none.mpr hthere) bytes
  generalize (p.save reals faults value incarnation disk).1 = after at hafter ⊢
  rw [hgood, Persistence.exists_ok_iff (Q := fun snapshot => snapshot = contents s ∨
    snapshot = contents n), Persistence.contents_load]
  exact Persistence.loads_either_iff hthere hload hnew hafter

namespace StateFile

/-- The store that wrote the first snapshot. -/
def writer : Persistence := { store with writtenSequence := 1 }

/-- The file of the second snapshot. -/
def second : List UInt8 :=
  Persistence.fileOf (bytesOf ((nested 1).dump noReals)) 2 2

theorem image_second : writer.image noReals (nested 1) 2 = .ok (2, second) := by
  decide +kernel

theorem readFile_second :
    (writer.readFile noReals writer.path (some second) false).isOk = true := by
  decide +kernel

theorem load_first : (writer.load noReals (saved (nested 0))).isOk = true := by
  decide +kernel

/-- The snapshot is in the backup, and the live file is cut off. -/
def onlyBackup : Disk := { live := some [], backup := (saved (nested 0)).live }

theorem load_onlyBackup : (writer.load noReals onlyBackup).isOk = true := by
  decide +kernel

/-- The live file cannot be replaced by `rename`, and the process stops before it tries
again. -/
def noReplace : Faults where
  fails op := op == .rename
  stop := some .renameAgain

/-- The process stops after the backup was removed. -/
def killed : Faults where
  stop := some .copyBackup

end StateFile

open StateFile in
/-- A save that is stopped before the new file is installed. -/
theorem crash_safe_iff_first :
    ∃ s n, writer.load noReals (saved (nested 0)) = .ok s ∧
      writer.readFile noReals writer.path (some StateFile.second) false = .ok n ∧
      ∃ found, writer.load noReals
          (writer.save noReals { stop := some .rename } (nested 1) 2 (saved (nested 0))).1 =
            .ok found ∧
        (contents found = contents s ∨ contents found = contents n) := by
  obtain ⟨s, hs⟩ := exists_of_isOk load_first
  obtain ⟨n, hn⟩ := exists_of_isOk readFile_second
  refine ⟨s, n, hs, hn, (crash_safe_iff hs image_second hn).mpr (Or.inr ⟨?_, Or.inl ?_⟩)⟩
  · rintro ⟨-, -, -, hunlinks⟩
    exact hunlinks.1.1 rfl
  · decide +kernel

open StateFile in
/-- After either of two interrupted saves of a loadable snapshot nothing is loaded: the
live file was removed, or the backup. -/
theorem interrupted_save_loses_snapshot :
    (writer.load noReals (saved (nested 0))).isOk = true ∧
      (writer.load noReals onlyBackup).isOk = true ∧
      writer.image noReals (nested 1) 2 = .ok (2, StateFile.second) ∧
      (writer.readFile noReals writer.path (some StateFile.second) false).isOk = true ∧
      (writer.load noReals
        (writer.save noReals noReplace (nested 1) 2 (saved (nested 0))).1).isOk = false ∧
      (writer.load noReals
        (writer.save noReals killed (nested 1) 2 onlyBackup).1).isOk = false :=
  ⟨load_first, load_onlyBackup, image_second, readFile_second, by decide +kernel, by decide +kernel⟩

end DrainFabric
