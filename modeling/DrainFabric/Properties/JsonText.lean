import DrainFabric.Json.Reprint
import DrainFabric.Properties.SavedLoads

/-!
# JSON texts, written and read

The two sides of the JSON layer against each other and against the grammar:

* `json_round_trip` — a value is read back from its text, with any indentation, and a text
  that was read is printed to the same text from then on. The compact text of a value
  that was read is within the size limit, as it is not longer than the text that was read;
* `jsonParse_accepts_iff` — the parser accepts the texts of the grammar that respect its
  limits, and no others.
-/

namespace DrainFabric

open JsonGrammar StateFile

/-- A value without a double is read back from its text, up to the sign type of its
integers, and printing a text that was read is idempotent. -/
theorem json_round_trip (reals : RealText) (limits : JsonLimits) :
    (∀ (value : JsonValue) (indent : Nat), value.Plain → value.Within limits →
      (value.dump reals indent).length ≤ limits.maxTotalBytes →
        jsonParse reals (value.dump reals indent) limits = .ok value.canonical) ∧
    ∀ (text : List Char) (value : JsonValue), AllBytes text →
      jsonParse reals text limits = .ok value → value.NoReal →
        (value.dump reals).length ≤ limits.maxTotalBytes ∧
        ∀ indent, (value.dump reals indent).length ≤ limits.maxTotalBytes →
          ∃ again, jsonParse reals (value.dump reals indent) limits = .ok again ∧
            again.dump reals indent = value.dump reals indent := by
  refine ⟨?_, ?_⟩
  · intro value indent hplain hwithin hlen
    exact jsonParse_dump hplain hwithin hlen
  · intro text value hbytes hparse hreal
    refine ⟨length_dump_le hparse hreal, ?_⟩
    intro indent hlen
    exact dump_of_jsonParse hparse hbytes hreal hlen

/-- A member with an indentation of two, and a text with spaces. -/
theorem json_round_trip_small :
    jsonParse noReals ((JsonValue.object [("k", .int 7)]).dump noReals 2) =
        .ok (.object [("k", .uint 7)]) ∧
      ∃ again, jsonParse noReals ((JsonValue.array [.uint 7]).dump noReals) = .ok again ∧
        again.dump noReals = ['[', '7', ']'] := by
  have hround := json_round_trip noReals {}
  refine ⟨?_, ?_⟩
  · refine hround.1 (.object [("k", .int 7)]) 2 ?_ ?_ ?_
    · refine .object (by decide) ?_ ?_
      · intro m hm c hc
        rw [List.mem_singleton.mp hm] at hc
        rw [List.mem_singleton.mp hc]
        decide
      · intro m hm
        rw [List.mem_singleton.mp hm]
        exact .int (by decide) (by decide)
    · exact ⟨⟨by decide, fun m hm => by rw [List.mem_singleton.mp hm]; exact ⟨by decide, trivial⟩⟩,
        by decide⟩
    · decide
  · have hbytes : AllBytes [' ', '[', ' ', '7', ']', '\n'] := by
      simp [AllBytes]
    have hreal : (JsonValue.array [.uint 7]).NoReal := by
      refine .array fun x hx => ?_
      rw [List.mem_singleton.mp hx]
      exact .leaf rfl rfl (by simp)
    obtain ⟨hle, hagain⟩ := hround.2 _ _ hbytes rfl hreal
    exact hagain 0 hle

/-- The parser accepts the texts of the grammar without a repeated key that respect its
limits. -/
theorem jsonParse_accepts_iff (reals : RealText) (text : List Char) (limits : JsonLimits) :
    (∃ value, jsonParse reals text limits = .ok value) ↔
      ∃ value, Text reals text value ∧ value.Distinct ∧ value.Within limits ∧
        text.length ≤ limits.maxTotalBytes := by
  refine exists_congr fun value => ?_
  exact jsonParse_eq_ok

end DrainFabric
