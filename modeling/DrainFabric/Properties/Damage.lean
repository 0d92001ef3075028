import DrainFabric.Wire
import DrainFabric.Persistence.ReadBack
import DrainFabric.Properties.SavedLoads

/-!
# Damaged frames and files

A frame and a snapshot file carry checksums over their parts. Whatever single byte is
changed, and wherever the image is cut or continued, the reader notices:

* `frame_damage_detected` — the header has a checksum of its own and names the length and
  the checksum of the payload;
* `file_damage_detected` — the checksum at the end covers everything before it. Only the
  length of the payload says where the end is, and a wrong length does not fit the file.
-/

namespace DrainFabric

open Lib

/-- One byte is changed, bytes are missing at the end, or there are more. -/
inductive Damaged (bytes : List UInt8) : List UInt8 → Prop
  | changed {damaged : List UInt8} : DiffersOnce bytes damaged → Damaged bytes damaged
  | truncated {kept lost : List UInt8} : bytes = kept ++ lost → lost ≠ [] → Damaged bytes kept
  | extended {more : List UInt8} : more ≠ [] → Damaged bytes (bytes ++ more)

/-- A number that is written differs from what is read after one of its bytes changed. -/
theorem getUint_ne_of_differsOnce {width value : Nat} (hvalue : value < 256 ^ width)
    {damaged : List UInt8} (h : DiffersOnce (putUint width value) damaged) :
    getUint damaged ≠ value := by
  intro heq
  refine h.ne (getUint_injective h.length_eq ?_)
  rw [heq, getUint_putUint hvalue]

theorem crc32c_toNat_ne {bytes damaged : List UInt8} (h : DiffersOnce bytes damaged) :
    (crc32c damaged).toNat ≠ (crc32c bytes).toNat :=
  fun heq => crc32c_ne_of_differsOnce h (UInt32.toNat_inj.mp heq)

/-! ### Frames -/

section

variable {type : UInt16} {sequence : UInt32} {payload damaged : List UInt8} {maxPayloadBytes : Nat}

theorem not_frameChecked_of_changed (hlength : payload.length < 2 ^ 32)
    (h : DiffersOnce (frameImage type sequence payload) damaged) :
    ¬ FrameChecked damaged maxPayloadBytes := by
  intro hchecked
  rcases differsOnce_append h with ⟨front, hfront, rfl⟩ | ⟨payload', hpayload, rfl⟩
  · rcases differsOnce_append hfront with ⟨header, hheader, rfl⟩ | ⟨crc, hcrc, rfl⟩
    -- a byte of the header
    · have hlen : header.length = 20 := hheader.length_eq.trans length_frameHeader
      have hheaderCrc := hchecked.headerCrc
      rw [List.append_assoc, List.take_left' hlen, getU32_written hlen] at hheaderCrc
      exact crc32c_toNat_ne hheader hheaderCrc
    -- a byte of its checksum
    · have hheaderCrc := hchecked.headerCrc
      have hlen := hcrc.length_eq.trans (length_putUint _ _)
      rw [List.append_assoc, List.take_left' length_frameHeader,
        getU32_middle length_frameHeader hlen] at hheaderCrc
      exact getUint_ne_of_differsOnce (toNat_lt_u32 _) hcrc hheaderCrc.symm
  -- a byte of the payload
  · have hread : FrameRead _ type sequence payload := frameRead_header hlength
      (putU32 (crc32c (frameHeader type sequence payload)).toNat ++ payload')
    have hlen : (frameHeader type sequence payload ++
        putU32 (crc32c (frameHeader type sequence payload)).toNat).length = frameHeaderBytes := by
      rw [List.length_append, length_frameHeader, putU32, length_putUint]
      rfl
    have hcrc := hchecked.payloadCrc
    rw [← List.append_assoc] at hread
    rw [hread.length, hread.payloadCrc, List.drop_left' hlen,
      List.take_of_length_le hpayload.length_eq.le] at hcrc
    exact crc32c_toNat_ne hpayload hcrc

theorem not_frameChecked_of_length (hlength : payload.length < 2 ^ 32) {more : List UInt8}
    (hbytes : damaged = frameImage type sequence payload ++ more ∨
      frameImage type sequence payload = damaged ++ more) (hmore : more ≠ []) :
    ¬ FrameChecked damaged maxPayloadBytes := by
  intro hchecked
  have hpos : 0 < more.length := List.length_pos_iff.mpr hmore
  have hread : FrameRead (frameImage type sequence payload) type sequence payload :=
    frameRead_image hlength
  have himage : (frameImage type sequence payload).length = frameHeaderBytes + payload.length :=
    length_frameImage
  have hfits := hchecked.length_eq
  have hlong := hchecked.long
  rcases hbytes with rfl | hbytes
  · have hsame : getU32 (frameImage type sequence payload ++ more) 12 = payload.length := by
      rw [getU32, getAt_append (by rw [himage]; unfold frameHeaderBytes; omega)]
      exact hread.length
    rw [List.length_append, hsame] at hfits
    omega
  · have hsame : getU32 damaged 12 = payload.length := by
      rw [← hread.length, hbytes, getU32, getU32,
        getAt_append (by unfold frameHeaderBytes at hlong; omega)]
    rw [hbytes, List.length_append] at himage
    omega

end

/-- A frame that was damaged is rejected. -/
theorem frame_damage_detected (reals : RealText) (frame : WireFrame) (maxPayloadBytes : Nat)
    (bytes damaged : List UInt8) (hencode : encodeFrame reals frame maxPayloadBytes = .ok bytes)
    (hdamaged : Damaged bytes damaged) :
    ∃ err, decodeFrame reals damaged maxPayloadBytes = .error err := by
  obtain ⟨_, hlength, rfl⟩ := encodeFrame_eq_ok.mp hencode
  have hfits : (bytesOf (frame.payload.dump reals)).length < 2 ^ 32 := by
    rw [bytesOf, List.length_map]
    exact hlength
  have hreject : ¬ FrameChecked damaged maxPayloadBytes := by
    cases hdamaged with
    | changed hchanged => exact not_frameChecked_of_changed hfits hchanged
    | truncated hkept hlost => exact not_frameChecked_of_length hfits (Or.inr hkept) hlost
    | extended hmore => exact not_frameChecked_of_length hfits (Or.inl rfl) hmore
  cases hdecode : decodeFrame reals damaged maxPayloadBytes with
  | error err => exact ⟨err, rfl⟩
  | ok decoded => exact absurd (decodeFrame_eq_ok.mp hdecode).1 hreject

/-- The payload `1` of a frame becomes `2`. -/
theorem frame_damage_detected_small :
    ∃ err, decodeFrame StateFile.noReals (frameHeader 1 7 [0x31] ++
      putU32 (crc32c (frameHeader 1 7 [0x31])).toNat ++ [0x32]) 1 = .error err := by
  have hencode : encodeFrame StateFile.noReals ⟨1, 7, .uint 1⟩ 1 = .ok (frameImage 1 7 [0x31]) :=
    encodeFrame_eq_ok.mpr ⟨by decide, by decide, rfl⟩
  have hchanged : DiffersOnce (frameImage 1 7 [0x31]) (frameHeader 1 7 [0x31] ++
      putU32 (crc32c (frameHeader 1 7 [0x31])).toNat ++ [0x32]) := by
    rw [frameImage]
    exact .here (by decide)
  exact frame_damage_detected _ _ _ _ _ hencode (.changed hchanged)

/-! ### Files -/

namespace Persistence

variable {p : Persistence} {payload damaged : List UInt8} {sequence : Nat}
  {incarnation : IncarnationId}

/-- The length in the header says where the checksum of the file is, and it matches. -/
theorem file_crc_of_checkFile {bytes : List UInt8} (h : p.checkFile bytes = .ok ()) :
    bytes.length = snapshotOverheadBytes + getU64 bytes 32 ∧
      (crc32c (bytes.take (snapshotHeaderBytes + getU64 bytes 32))).toNat =
        getU32 bytes (snapshotHeaderBytes + getU64 bytes 32) := by
  simp only [checkFile, bind_eq_ok, rejectIf_eq_ok, exists_const, not_not, ne_eq] at h
  obtain ⟨-, -, -, -, -, -, -, htotal, -, hcrc⟩ := h
  refine ⟨?_, hcrc⟩
  rw [addChecked] at htotal
  split_ifs at htotal
  exact (Option.some.inj htotal).symm

theorem getU64_fileOf (hlength : payload.length ≤ u64Max) :
    getU64 (fileOf payload sequence incarnation) 32 = payload.length := by
  have hassoc : fileOf payload sequence incarnation =
      (magicHeader ++ putUint 4 (crc32c magicHeader).toNat ++ putUint 8 sequence ++
        putUint 8 incarnation) ++ (putUint 8 payload.length ++ (putUint 4 (crc32c payload).toNat ++
        (putUint 4 reservedMarker ++ (payload ++
          putUint 4 (crc32c (header payload sequence incarnation ++ payload)).toNat)))) := by
    simp only [fileOf, header, putU32, putU64, List.append_assoc]
  have hfront : (magicHeader ++ putUint 4 (crc32c magicHeader).toNat ++ putUint 8 sequence ++
      putUint 8 incarnation).length = 32 := by
    simp only [List.length_append, length_magicHeader, length_putUint]
  rw [hassoc, getU64, getAt_skip hfront.le, hfront]
  exact getAt_putUint (lt_of_le_u64Max hlength) _

theorem not_checkFile_of_changed (h : DiffersOnce (fileOf payload sequence incarnation) damaged) :
    p.checkFile damaged ≠ .ok () := by
  intro hcheck
  obtain ⟨htotal, hcrc⟩ := file_crc_of_checkFile hcheck
  -- the length did not change, so it is the one in the header, damaged or not
  have hlen : getU64 damaged 32 = payload.length := by
    rw [h.length_eq, length_fileOf] at htotal
    omega
  rw [hlen] at hcrc
  rcases differsOnce_append h with ⟨body, hbody, rfl⟩ | ⟨footer, hfooter, rfl⟩
  · have hlength : body.length = snapshotHeaderBytes + payload.length := by
      rw [hbody.length_eq, List.length_append, length_header]
    rw [List.take_left' hlength, ← List.append_nil (putU32 _), getU32_written hlength] at hcrc
    exact crc32c_toNat_ne hbody hcrc
  · have hlength : (header payload sequence incarnation ++ payload).length =
        snapshotHeaderBytes + payload.length := by
      rw [List.length_append, length_header]
    rw [List.take_left' hlength, ← List.append_nil footer,
      getU32_middle hlength (hfooter.length_eq.trans (length_putUint _ _))] at hcrc
    exact getUint_ne_of_differsOnce (toNat_lt_u32 _) hfooter hcrc.symm

theorem not_checkFile_of_length (hlength : payload.length ≤ u64Max) {more : List UInt8}
    (hbytes : damaged = fileOf payload sequence incarnation ++ more ∨
      fileOf payload sequence incarnation = damaged ++ more) (hmore : more ≠ []) :
    p.checkFile damaged ≠ .ok () := by
  intro hcheck
  obtain ⟨htotal, -⟩ := file_crc_of_checkFile hcheck
  have hpos : 0 < more.length := List.length_pos_iff.mpr hmore
  have hfile : (fileOf payload sequence incarnation).length =
      snapshotOverheadBytes + payload.length := length_fileOf
  have hfield : getU64 (fileOf payload sequence incarnation) 32 = payload.length :=
    getU64_fileOf hlength
  have hoverhead : 40 ≤ snapshotOverheadBytes := by decide
  rcases hbytes with rfl | hbytes
  · have hsame : getU64 (fileOf payload sequence incarnation ++ more) 32 = payload.length := by
      rw [getU64, getAt_append (by omega)]
      exact hfield
    rw [List.length_append, hsame] at htotal
    omega
  · have hsame : getU64 damaged 32 = payload.length := by
      rw [← hfield, hbytes, getU64, getU64, getAt_append (by omega)]
    rw [hbytes, List.length_append] at hfile
    omega

end Persistence

/-- A snapshot file that was damaged is rejected. -/
theorem file_damage_detected (reals : RealText) (p : Persistence) (file : String)
    (fromBackup : Bool) (payload : List UInt8) (sequence : Nat) (incarnation : IncarnationId)
    (damaged : List UInt8) (hlength : payload.length ≤ u64Max)
    (hdamaged : Damaged (Persistence.fileOf payload sequence incarnation) damaged) :
    ∃ err, p.readFile reals file (some damaged) fromBackup = .error err := by
  have hreject : p.checkFile damaged ≠ .ok () := by
    cases hdamaged with
    | changed hchanged => exact Persistence.not_checkFile_of_changed hchanged
    | truncated hkept hlost => exact Persistence.not_checkFile_of_length hlength (Or.inr hkept) hlost
    | extended hmore => exact Persistence.not_checkFile_of_length hlength (Or.inl rfl) hmore
  cases hread : p.readFile reals file (some damaged) fromBackup with
  | error err => exact ⟨err, rfl⟩
  | ok found =>
    simp only [Persistence.readFile, bind_eq_ok] at hread
    obtain ⟨bytes, hbytes, ⟨⟩, hcheck, -⟩ := hread
    simp only [Persistence.readWholeFile, orFail, bind_eq_ok, pure_eq_ok, rejectIf_eq_ok,
      Except.ok.injEq] at hbytes
    obtain ⟨_, rfl, _, _, rfl⟩ := hbytes
    exact absurd hcheck hreject

/-- A byte too many. -/
theorem file_damage_detected_small :
    ∃ err, StateFile.store.readFile StateFile.noReals "state"
      (some (Persistence.fileOf [0x31] 1 1 ++ [0])) false = .error err :=
  file_damage_detected StateFile.noReals StateFile.store "state" false [0x31] 1 1 _ (by decide)
    (.extended (by decide))

end DrainFabric
