import DrainFabric.Wire
import DrainFabric.Properties.SavedLoads

/-!
# Frames that are sent and frames that are received

The sender bounds a payload in bytes. The receiver parses it under the limits of the
parser, which bound levels, nodes, entries and strings too; `sent_frame_received_iff` says
that these limits are what decides.
-/

namespace DrainFabric

open Lib

/-- A frame that was encoded is decoded to the same type, sequence and payload exactly when
the payload is within the limits of the parser. -/
theorem sent_frame_received_iff (reals : RealText) (frame : WireFrame) (maxPayloadBytes : Nat)
    (bytes : List UInt8) (hplain : frame.payload.Plain)
    (hencode : encodeFrame reals frame maxPayloadBytes = .ok bytes) :
    (∃ received, decodeFrame reals bytes maxPayloadBytes = .ok received ∧
        received.type = frame.type ∧ received.sequence = frame.sequence ∧
        received.payload.canonical = frame.payload.canonical) ↔
      frame.payload.Within { maxTotalBytes := maxPayloadBytes } := by
  obtain ⟨hmax, hlength, rfl⟩ := encodeFrame_eq_ok.mp hencode
  constructor
  · rintro ⟨received, hdecode, -, -, hsame⟩
    rw [← JsonValue.within_canonical, ← hsame, JsonValue.within_canonical]
    exact jsonParse_within (decodeFrame_eq_ok.mp hdecode).2.1
  · intro hwithin
    exact ⟨_, decodeFrame_image hplain hwithin hmax hlength, rfl, rfl,
      frame.payload.canonical_canonical⟩

open StateFile in
theorem sent_frame_received_iff_small :
    ∃ received, decodeFrame noReals (frameImage 1 7 [0x5b, 0x5d]) 2 = .ok received ∧
      received.type = 1 ∧ received.sequence = 7 ∧
      received.payload.canonical = (nested 0).canonical := by
  have hencode : encodeFrame noReals ⟨1, 7, nested 0⟩ 2 = .ok (frameImage 1 7 [0x5b, 0x5d]) :=
    encodeFrame_eq_ok.mpr ⟨by decide, by decide, rfl⟩
  have hwithin : (nested 0).Within { maxTotalBytes := 2 } :=
    ⟨⟨by decide, fun item hitem => by cases hitem⟩, by decide⟩
  exact (sent_frame_received_iff noReals ⟨1, 7, nested 0⟩ 2 _ (plain_nested 0) hencode).mpr hwithin

namespace StateFile

/-- A text of so many bytes. -/
def longText (length : Nat) : JsonValue := .string (String.ofList (List.replicate length 'a'))

theorem length_dump_longText (length : Nat) :
    ((longText length).dump noReals).length = length + 2 := by
  have hescaped : ((List.replicate length 'a').flatMap JsonValue.escapeChar).length = length := by
    induction length with
    | zero => rfl
    | succ length ih =>
      rw [List.replicate_succ, List.flatMap_cons, List.length_append, ih, Nat.add_comm]
      rfl
  show (JsonValue.appendEscaped _).length = length + 2
  rw [JsonValue.appendEscaped, String.toList_ofList, List.length_cons, List.length_append, hescaped]
  rfl

theorem plain_longText (length : Nat) : (longText length).Plain := by
  refine .string fun c hc => ?_
  rw [String.toList_ofList] at hc
  rw [List.eq_of_mem_replicate hc]
  decide

theorem length_le_of_within {length : Nat} {limits : JsonLimits}
    (h : (longText length).Within limits) : length ≤ limits.maxStringBytes := by
  have hlength : (String.ofList (List.replicate length 'a')).length ≤ limits.maxStringBytes := h.1
  rwa [String.length_ofList, List.length_replicate] at hlength

end StateFile

open StateFile in
/-- With the default bound, a frame with a text of 8,193 bytes is sent and not received. -/
theorem long_text_not_received :
    (longText 8193).Plain ∧
      ∃ bytes, encodeFrame noReals ⟨19, 1, longText 8193⟩ (4 * 1024 * 1024) = .ok bytes ∧
        ¬ ∃ received, decodeFrame noReals bytes (4 * 1024 * 1024) = .ok received ∧
          received.payload.canonical = (longText 8193).canonical := by
  have hlength := length_dump_longText 8193
  refine ⟨plain_longText 8193, _, encodeFrame_eq_ok.mpr ⟨?_, ?_, rfl⟩, ?_⟩
  · rw [hlength]
    decide
  · rw [hlength]
    decide
  · rintro ⟨received, hdecode, hsame⟩
    have hwithin := jsonParse_within (decodeFrame_eq_ok.mp hdecode).2.1
    rw [← JsonValue.within_canonical, hsame, JsonValue.within_canonical] at hwithin
    exact absurd (length_le_of_within hwithin) (by decide)

end DrainFabric
