import DrainFabric.Json.Reprint
import DrainFabric.Persistence

/-!
# What a load finds in a file

* `readFile_fileOf` — the checks of `read_file` pass on a file that `save` wrote, whatever
  the payload, as long as the bound on the file does not wrap around;
* `within_of_readFile` — a file that is accepted holds a value within the limits of the
  parser.
-/

namespace DrainFabric

open Lib

variable {value : JsonValue}

/-! ### The file -/

namespace Persistence

variable {reals : RealText} {p : Persistence} {payload : List UInt8} {sequence : Nat}
  {incarnation : IncarnationId} {file : String} {fromBackup : Bool}

theorem length_magicHeader : magicHeader.length = 12 := by decide

theorem length_header : (header payload sequence incarnation).length = snapshotHeaderBytes := by
  simp [header, putU32, putU64, length_magicHeader, snapshotHeaderBytes]

theorem length_fileOf : (fileOf payload sequence incarnation).length =
    snapshotOverheadBytes + payload.length := by
  simp only [fileOf, List.length_append, length_header, putU32, length_putUint,
    snapshotOverheadBytes]
  omega

/-- The numbers of the header are found where the reader looks for them. -/
structure HeaderRead (bytes payload : List UInt8) (sequence : Nat) (incarnation : IncarnationId) :
    Prop where
  magicCrc : getU32 bytes 12 = (crc32c magicHeader).toNat
  format : getU16 bytes 8 = snapshotFormatVersion
  flags : getU16 bytes 10 = 0
  sequence : getU64 bytes 16 = sequence
  incarnation : getU64 bytes 24 = incarnation
  length : getU64 bytes 32 = payload.length
  payloadCrc : getU32 bytes 40 = (crc32c payload).toNat
  reserved : getU32 bytes 44 = reservedMarker

/-- A file field by field. -/
theorem fileOf_eq : fileOf payload sequence incarnation = snapshotMagic ++
    (putUint 2 snapshotFormatVersion ++ (putUint 2 0 ++ (putUint 4 (crc32c magicHeader).toNat ++
    (putUint 8 sequence ++ (putUint 8 incarnation ++ (putUint 8 payload.length ++
    (putUint 4 (crc32c payload).toNat ++ (putUint 4 reservedMarker ++ (payload ++
    putUint 4 (crc32c (header payload sequence incarnation ++ payload)).toNat))))))))) := by
  simp only [fileOf, header, magicHeader, putU16, putU32, putU64, List.append_assoc]

/-- The stamp of a file: its incarnation and its sequence. -/
theorem stamp_fileOf (hsequence : sequence ≤ u64Max) (hincarnation : incarnation ≤ u64Max) :
    getU64 (fileOf payload sequence incarnation) 24 = incarnation ∧
      getU64 (fileOf payload sequence incarnation) 16 = sequence := by
  have hmagic : snapshotMagic.length = 8 := by decide
  rw [fileOf_eq]
  constructor
  all_goals
    simp (disch := simp [hmagic]) only [getU64, getAt_skip, length_putUint, hmagic]
    refine getAt_putUint ?_ _
  · exact lt_of_le_u64Max hincarnation
  · exact lt_of_le_u64Max hsequence

theorem headerRead_fileOf (hsequence : sequence ≤ u64Max) (hincarnation : incarnation ≤ u64Max)
    (hlength : payload.length ≤ u64Max) :
    HeaderRead (fileOf payload sequence incarnation) payload sequence incarnation := by
  have hmagic : snapshotMagic.length = 8 := by decide
  obtain ⟨hstamp, hnumber⟩ := @stamp_fileOf payload _ _ hsequence hincarnation
  refine ⟨?_, ?_, ?_, hnumber, hstamp, ?_, ?_, ?_⟩
  all_goals
    rw [fileOf_eq]
    simp (disch := simp [hmagic]) only [getU16, getU32, getU64, getAt_skip, length_putUint, hmagic]
    refine getAt_putUint ?_ _
  · exact toNat_lt_u32 _
  · decide
  · decide
  · exact lt_of_le_u64Max hlength
  · exact toNat_lt_u32 _
  · decide

/-- A file that `save` wrote passes the checks. -/
theorem checkFile_fileOf (hsequence : sequence ≤ u64Max) (hincarnation : incarnation ≤ u64Max)
    (hlength : payload.length ≤ p.maxSnapshotBytes)
    (hmax : snapshotOverheadBytes + payload.length ≤ u64Max) :
    p.checkFile (fileOf payload sequence incarnation) = .ok () := by
  have hread := headerRead_fileOf hsequence hincarnation
    ((Nat.le_add_left payload.length snapshotOverheadBytes).trans hmax)
  have hsplit : fileOf payload sequence incarnation = header payload sequence incarnation ++
      (payload ++ putUint 4 (crc32c (header payload sequence incarnation ++ payload)).toNat) := by
    rw [fileOf, putU32, List.append_assoc]
  have hmagic : ∃ back, fileOf payload sequence incarnation = magicHeader ++ back := by
    simp only [fileOf, header, List.append_assoc]
    exact ⟨_, rfl⟩
  obtain ⟨back, hback⟩ := hmagic
  have htake : (fileOf payload sequence incarnation).take 12 = magicHeader := by
    rw [hback, List.take_append_of_le_length length_magicHeader.ge,
      List.take_of_length_le length_magicHeader.le]
  have hfirst : (fileOf payload sequence incarnation).take 8 = snapshotMagic := by
    have h8 := congrArg (List.take 8) htake
    rwa [List.take_take] at h8
  have hbody : ((fileOf payload sequence incarnation).drop snapshotHeaderBytes).take
      payload.length = payload := by
    rw [hsplit, List.drop_left' length_header, List.take_left' rfl]
  have hall : (fileOf payload sequence incarnation).take (snapshotHeaderBytes + payload.length) =
      header payload sequence incarnation ++ payload := by
    rw [fileOf, List.take_left' (by rw [List.length_append, length_header])]
  have hfooter : getU32 (fileOf payload sequence incarnation)
      (snapshotHeaderBytes + payload.length) =
        (crc32c (header payload sequence incarnation ++ payload)).toNat := by
    have hlen : (header payload sequence incarnation ++ payload).length =
        snapshotHeaderBytes + payload.length := by rw [List.length_append, length_header]
    rw [fileOf, getU32, getAt_skip hlen.le, hlen, Nat.sub_self, putU32, ← List.append_nil (putUint _ _)]
    exact getAt_putUint (toNat_lt_u32 _) []
  have htotal : addChecked snapshotOverheadBytes payload.length =
      some (fileOf payload sequence incarnation).length := by
    rw [addChecked, if_neg (by omega), length_fileOf]
  have hlong : ¬ (fileOf payload sequence incarnation).length < snapshotOverheadBytes := by
    rw [length_fileOf]
    omega
  simp only [checkFile, rejectIf, hlong, hfirst, htake, hread.magicCrc, hread.format, hread.flags,
    hread.reserved, hread.length, Nat.not_lt.mpr hlength, htotal, hbody, hread.payloadCrc, hall,
    hfooter, ne_eq, not_true_eq_false, if_false, ok_bind]

/-- The bound on the file is the sum it is meant to be. -/
theorem bound_eq (h : p.maxSnapshotBytes + snapshotOverheadBytes ≤ u64Max) :
    (p.maxSnapshotBytes + snapshotOverheadBytes) % 2 ^ 64 =
      p.maxSnapshotBytes + snapshotOverheadBytes :=
  Nat.mod_eq_of_lt (Nat.lt_of_le_of_lt h (by decide))

/-- A snapshot within the limits is read back from the file it was written to. -/
theorem readFile_fileOf (hv : value.Plain)
    (hwithin : value.Within { maxTotalBytes := p.maxSnapshotBytes })
    (hlength : (value.dump reals).length ≤ p.maxSnapshotBytes)
    (hbound : p.maxSnapshotBytes + snapshotOverheadBytes ≤ u64Max) (hsequence : sequence ≤ u64Max)
    (hincarnation : incarnation ≤ u64Max) :
    ∃ info, p.readFile reals file (some (fileOf (bytesOf (value.dump reals)) sequence incarnation))
        fromBackup = .ok (value.canonical, info) ∧
      info.sequence = sequence ∧ info.incarnation = incarnation := by
  have hbytes : (bytesOf (value.dump reals)).length = (value.dump reals).length :=
    List.length_map _
  have hsize : snapshotOverheadBytes + (bytesOf (value.dump reals)).length ≤
      p.maxSnapshotBytes + snapshotOverheadBytes := by
    omega
  have hread : HeaderRead (fileOf (bytesOf (value.dump reals)) sequence incarnation)
      (bytesOf (value.dump reals)) sequence incarnation :=
    headerRead_fileOf hsequence hincarnation (by omega)
  have htext : AllBytes (value.dump reals) := JsonValue.allBytes_dumpInto hv
  have hsplit : (fileOf (bytesOf (value.dump reals)) sequence incarnation).drop snapshotHeaderBytes =
      bytesOf (value.dump reals) ++ putU32 (crc32c
        (header (bytesOf (value.dump reals)) sequence incarnation ++
          bytesOf (value.dump reals))).toNat := by
    rw [fileOf, List.append_assoc, List.drop_left' length_header]
  have hparse : jsonParse reals (textOf (((fileOf (bytesOf (value.dump reals)) sequence
      incarnation).drop snapshotHeaderBytes).take (bytesOf (value.dump reals)).length))
        { maxTotalBytes := p.maxSnapshotBytes } = .ok value.canonical := by
    rw [hsplit, List.take_left' rfl, textOf_bytesOf htext]
    exact jsonParse_dump hv hwithin hlength
  have hwhole : readWholeFile file (some (fileOf (bytesOf (value.dump reals)) sequence incarnation))
      ((p.maxSnapshotBytes + snapshotOverheadBytes) % 2 ^ 64) =
        .ok (fileOf (bytesOf (value.dump reals)) sequence incarnation) := by
    rw [readWholeFile, orFail, ok_bind, rejectIf, bound_eq hbound, length_fileOf,
      if_neg (Nat.not_lt.mpr hsize)]
    rfl
  have hcheck : p.checkFile (fileOf (bytesOf (value.dump reals)) sequence incarnation) = .ok () :=
    checkFile_fileOf hsequence hincarnation (by omega) (by omega)
  simp only [readFile, hwhole, hcheck, ok_bind, hread.length, hparse, Except.mapError]
  exact ⟨_, rfl, hread.sequence, hread.incarnation⟩

/-- A file is accepted only if the bound on it did not wrap around, and if its value is
within the limits of the parser. -/
theorem within_of_readFile (hmax : p.maxSnapshotBytes ≤ u64Max) {content : Option (List UInt8)}
    {info : SnapshotInfo} (h : p.readFile reals file content fromBackup = .ok (value, info)) :
    p.maxSnapshotBytes + snapshotOverheadBytes ≤ u64Max ∧
      value.Within { maxTotalBytes := p.maxSnapshotBytes } := by
  simp only [readFile, bind_eq_ok, pure_eq_ok, Prod.mk.injEq] at h
  obtain ⟨bytes, hbytes, _, hcheck, found, hparse, rfl, -⟩ := h
  refine ⟨?_, jsonParse_within (mapError_eq_ok.mp hparse)⟩
  simp only [readWholeFile, bind_eq_ok, pure_eq_ok, rejectIf_eq_ok] at hbytes
  obtain ⟨_, -, _, hshort, rfl⟩ := hbytes
  simp only [checkFile, bind_eq_ok, rejectIf_eq_ok] at hcheck
  obtain ⟨_, hlong, -⟩ := hcheck
  by_contra hwraps
  have hwrapped : (p.maxSnapshotBytes + snapshotOverheadBytes) % 2 ^ 64 < snapshotOverheadBytes := by
    unfold u64Max at hmax hwraps
    unfold snapshotOverheadBytes snapshotHeaderBytes at *
    omega
  omega

theorem within_of_load (hmax : p.maxSnapshotBytes ≤ u64Max) {disk : Disk} {info : SnapshotInfo}
    (h : p.load reals disk = .ok (value, info)) :
    p.maxSnapshotBytes + snapshotOverheadBytes ≤ u64Max ∧
      value.Within { maxTotalBytes := p.maxSnapshotBytes } := by
  rw [load] at h
  split at h
  · rename_i found hlive
    cases h
    exact within_of_readFile hmax hlive
  · split_ifs at h
    split at h
    · rename_i found hbackup
      cases h
      exact within_of_readFile hmax hbackup
    · cases h

end Persistence

end DrainFabric
