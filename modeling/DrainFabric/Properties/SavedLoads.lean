import DrainFabric.Persistence.ReadBack
import DrainFabric.Persistence.Replace

/-!
# A saved snapshot loads

`save` bounds a snapshot by the bytes of its payload and by nothing else. `load` reads it
back exactly when the bound on the file does not wrap around and the value is within the
limits of the parser: at most 33 levels, 262144 nodes, 65536 entries a container and 8192
bytes a string.
-/

namespace DrainFabric

open Lib

variable {p : Persistence} {value : JsonValue}

namespace Persistence

/-- What a save that succeeded has written. -/
theorem save_ok {reals : RealText} {p' : Persistence} {faults : Faults}
    {incarnation : IncarnationId} {disk disk' : Disk}
    (h : p.save reals faults value incarnation disk = (disk', some (p', .ok ()))) :
    p.writtenSequence < u64Max ∧ (value.dump reals).length ≤ p.maxSnapshotBytes ∧
      p' = { p with writtenSequence := p.writtenSequence + 1 } ∧
      disk'.live = some (fileOf (bytesOf (value.dump reals)) (p.writtenSequence + 1)
        incarnation) := by
  cases himage : p.image reals value incarnation with
  | error err =>
    rw [save, himage] at h
    cases h
  | ok written =>
    obtain ⟨sequence, bytes⟩ := written
    simp only [save, himage] at h
    obtain ⟨outcome, houtcome, hnext⟩ := Fs.some_of_bind (congrArg Prod.snd h)
    rw [hnext] at h
    cases outcome with
    | error err => cases h
    | ok _ =>
      cases h
      simp only [image, bind_eq_ok, pure_eq_ok, rejectIf_eq_ok, orFail_eq_ok, Prod.mk.injEq]
        at himage
      obtain ⟨_, hlength, next, hnumber, rfl, rfl⟩ := himage
      obtain ⟨hlt, rfl⟩ := incrementChecked_eq_some hnumber
      exact ⟨hlt, Nat.not_lt.mp hlength, rfl, live_of_replace houtcome⟩

/-- A save that nothing happens to succeeds, if the payload is within the bound. -/
theorem save_of_no_faults (reals : RealText) (incarnation : IncarnationId) (disk : Disk)
    (hlength : (value.dump reals).length ≤ p.maxSnapshotBytes)
    (hroom : p.writtenSequence < u64Max) :
    p.save reals {} value incarnation disk =
      ({ live := some (fileOf (bytesOf (value.dump reals)) (p.writtenSequence + 1) incarnation),
         backup := disk.live.or disk.backup, temporary := none },
        some ({ p with writtenSequence := p.writtenSequence + 1 }, .ok ())) := by
  have himage : p.image reals value incarnation = .ok (p.writtenSequence + 1,
      fileOf (bytesOf (value.dump reals)) (p.writtenSequence + 1) incarnation) := by
    rw [image, rejectIf, if_neg (Nat.not_lt.mpr hlength), ok_bind, incrementChecked_eq, if_pos hroom]
    rfl
  simp only [save, himage, Fs.bind_apply, replace_of_no_faults]
  rfl

end Persistence

/-- After a save that succeeded, with whatever failures on the way, the snapshot is loaded
again exactly when the configured bound leaves room for the overhead of a file and the value
is within the limits of the parser. -/
theorem saved_snapshot_loads_iff {reals : RealText} {p p' : Persistence} {faults : Faults}
    {value : JsonValue} {incarnation : IncarnationId} {disk disk' : Disk} (hplain : value.Plain)
    (hincarnation : incarnation ≤ u64Max) (hmax : p.maxSnapshotBytes ≤ u64Max)
    (hsave : p.save reals faults value incarnation disk = (disk', some (p', .ok ()))) :
    (∃ found info, p'.load reals disk' = .ok (found, info) ∧
        found.canonical = value.canonical ∧ info.incarnation = incarnation) ↔
      p.maxSnapshotBytes + snapshotOverheadBytes ≤ u64Max ∧
        value.Within { maxTotalBytes := p.maxSnapshotBytes } := by
  obtain ⟨hsequence, hlength, rfl, hlive⟩ := Persistence.save_ok hsave
  constructor
  · rintro ⟨found, info, hload, hsame, -⟩
    obtain ⟨hbound, hwithin⟩ := Persistence.within_of_load hmax hload
    refine ⟨hbound, ?_⟩
    rw [← JsonValue.within_canonical, ← hsame, JsonValue.within_canonical]
    exact hwithin
  · rintro ⟨hbound, hwithin⟩
    have hread : ∃ info, Persistence.readFile reals
        { p with writtenSequence := p.writtenSequence + 1 } p.path
        (some (Persistence.fileOf (bytesOf (value.dump reals)) (p.writtenSequence + 1)
          incarnation)) false = .ok (value.canonical, info) ∧
            info.sequence = p.writtenSequence + 1 ∧ info.incarnation = incarnation :=
      Persistence.readFile_fileOf hplain hwithin hlength hbound hsequence hincarnation
    obtain ⟨info, hread, -, hfound⟩ := hread
    refine ⟨value.canonical, info, ?_, value.canonical_canonical, hfound⟩
    rw [Persistence.load, hlive, hread]

namespace StateFile

/-- No double is printed or scanned. -/
def noReals : RealText where
  print _ := []
  scan _ := 0

/-- A store with the default limits. -/
def store : Persistence := { path := "state" }

/-- A value of so many levels above an empty array. -/
def nested : Nat → JsonValue
  | 0 => .array []
  | levels + 1 => .array [nested levels]

theorem plain_nested (levels : Nat) : (nested levels).Plain := by
  induction levels with
  | zero => exact .array (fun item hitem => by cases hitem)
  | succ levels ih =>
    refine .array (fun item hitem => ?_)
    rwa [List.mem_singleton.mp hitem]

/-- The files after the value is saved on an empty disk. -/
def saved (value : JsonValue) : Disk := (store.save noReals {} value 1 {}).1

theorem save_nested {levels : Nat}
    (hlength : ((nested levels).dump noReals).length ≤ store.maxSnapshotBytes) :
    store.save noReals {} (nested levels) 1 {} =
      (saved (nested levels), some ({ store with writtenSequence := 1 }, .ok ())) := by
  rw [saved, Persistence.save_of_no_faults noReals 1 {} hlength (by decide)]
  rfl

theorem lt_of_fits_nested {limits : JsonLimits} {depth levels : Nat}
    (h : (nested depth).Fits limits levels) : depth < levels := by
  induction levels generalizing depth with
  | zero => exact h.elim
  | succ levels ih =>
    cases depth with
    | zero => exact Nat.succ_pos levels
    | succ depth => exact Nat.succ_lt_succ (ih (h.2 _ List.mem_cons_self))

end StateFile

open StateFile in
theorem saved_snapshot_loads_iff_empty :
    ∃ found info, { store with writtenSequence := 1 }.load noReals (saved (nested 0)) =
        .ok (found, info) ∧ found.canonical = (nested 0).canonical ∧ info.incarnation = 1 := by
  have hwithin : (nested 0).Within { maxTotalBytes := store.maxSnapshotBytes } :=
    ⟨⟨by decide, fun item hitem => by cases hitem⟩, by decide⟩
  exact (saved_snapshot_loads_iff (plain_nested 0) (by decide) (by decide)
    (save_nested (by decide))).mpr ⟨by decide, hwithin⟩

open StateFile in
/-- With the default limits, an array nested 34 levels deep is saved and not read back. -/
theorem saved_snapshot_rejected :
    (nested 33).Plain ∧
      store.save noReals {} (nested 33) 1 {} =
        (saved (nested 33), some ({ store with writtenSequence := 1 }, .ok ())) ∧
      ¬ ∃ found info, { store with writtenSequence := 1 }.load noReals (saved (nested 33)) =
        .ok (found, info) ∧ found.canonical = (nested 33).canonical := by
  refine ⟨plain_nested 33, save_nested (by decide), ?_⟩
  rintro ⟨found, info, hload, hsame⟩
  have hwithin := (Persistence.within_of_load (by decide) hload).2
  rw [← JsonValue.within_canonical, hsame, JsonValue.within_canonical] at hwithin
  exact absurd (lt_of_fits_nested hwithin.1) (by decide)

end DrainFabric
