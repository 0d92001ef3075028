import Mathlib.Algebra.Order.Ring.Int

/-!
# Results, checked counters, time points and digests

The vocabulary every component of the drain runtime is written in
(`result.hpp`, `checked.hpp`, `clock.hpp`, `digest.hpp`, `version.hpp`).

A `std::string` is a sequence of bytes. It is modelled by a Lean `String` with
**one `Char` per byte**, so that `size()` is `length`, `resize` is `take` and the
comparison of strings is the comparison of their bytes.

Fixed-width integers are `Nat` and `Int`. Wherever the code checks a bound of the
machine type, saturates at it or casts across it, the bound is written out.
-/

namespace DrainFabric

variable {message : String} {base delta : Int}

/-- `kSnapshotFormatVersion`, of the snapshot document and of the file around it. -/
def snapshotFormatVersion : Nat := 1

/-! ### Errors (`result.hpp`) -/

inductive ErrorCode
  | ok | invalidArgument | malformedIdentity | notFound | alreadyExists | duplicateIdentity
  | staleGeneration | staleAuthority | staleEpoch | staleIncarnation | staleEvidence
  | staleRevision | admissionClosed | illegalTransition | policyViolation
  | redundancyViolation | capacityViolation | domainLimitViolation
  | protectedObligationRemains | authorityRequired | persistenceCorrupt | persistenceIo
  | boundsExceeded | cancelled | unsupported | protocolError | transportError | busy
  | shuttingDown | internal | blocked
  deriving DecidableEq, Repr

variable {code : ErrorCode}

def ErrorCode.toString : ErrorCode → String
  | ok => "ok"
  | invalidArgument => "invalid-argument"
  | malformedIdentity => "malformed-identity"
  | notFound => "not-found"
  | alreadyExists => "already-exists"
  | duplicateIdentity => "duplicate-identity"
  | staleGeneration => "stale-generation"
  | staleAuthority => "stale-authority"
  | staleEpoch => "stale-epoch"
  | staleIncarnation => "stale-incarnation"
  | staleEvidence => "stale-evidence"
  | staleRevision => "stale-revision"
  | admissionClosed => "admission-closed"
  | illegalTransition => "illegal-transition"
  | policyViolation => "policy-violation"
  | redundancyViolation => "redundancy-violation"
  | capacityViolation => "capacity-violation"
  | domainLimitViolation => "domain-limit-violation"
  | protectedObligationRemains => "protected-obligation-remains"
  | authorityRequired => "authority-required"
  | persistenceCorrupt => "persistence-corrupt"
  | persistenceIo => "persistence-io"
  | boundsExceeded => "bounds-exceeded"
  | cancelled => "cancelled"
  | unsupported => "unsupported"
  | protocolError => "protocol-error"
  | transportError => "transport-error"
  | busy => "busy"
  | shuttingDown => "shutting-down"
  | internal => "internal"
  | blocked => "blocked"

structure Error where
  code : ErrorCode
  message : String
  deriving DecidableEq, Repr

/-- `Error::to_string`. -/
def Error.toString (err : Error) : String :=
  if err.code = .ok then "ok"
  else if err.message.isEmpty then err.code.toString
  else err.code.toString ++ ": " ++ err.message

/-- `Result<T>`. -/
abbrev Result (α : Type) := Except Error α

/-- `Status`, that is `Result<void>`. -/
abbrev Status := Result Unit

/-- `fail(code, message)`. -/
def fail {α : Type} (code : ErrorCode) (message : String) : Result α := .error ⟨code, message⟩

/-- `if (condition) return fail(code, message);` -/
def rejectIf (condition : Prop) [Decidable condition] (code : ErrorCode) (message : String) :
    Status :=
  if condition then fail code message else .ok ()

/-- The value of an optional, or the failure returned when it is empty. -/
def orFail {α : Type} (value : Option α) (code : ErrorCode) (message : String) : Result α :=
  match value with
  | some a => .ok a
  | none => fail code message

@[simp] theorem fail_ne_ok {α : Type} {a : α} : (fail code message : Result α) ≠ .ok a := by
  simp [fail]

@[simp] theorem rejectIf_eq_ok {condition : Prop} [Decidable condition] {u : Unit} :
    rejectIf condition code message = .ok u ↔ ¬ condition := by
  by_cases h : condition <;> simp [rejectIf, h]

@[simp] theorem orFail_eq_ok {α : Type} {value : Option α} {a : α} :
    orFail value code message = .ok a ↔ value = some a := by
  cases value <;> simp [orFail]

/-- `truncate` of `engine.cpp`: bounds every free-form string. -/
def truncate (text : String) (limit : Nat := 256) : String :=
  if text.length ≤ limit then text
  else String.ofList (text.toList.take limit) ++ "..."

/-! ### Machine integers (`checked.hpp`) -/

/-- `std::numeric_limits<std::uint64_t>::max()`. -/
def u64Max : Nat := 2 ^ 64 - 1

/-- `std::numeric_limits<std::uint32_t>::max()`. -/
def u32Max : Nat := 2 ^ 32 - 1

/-- `std::numeric_limits<std::int64_t>::max()`. -/
def i64Max : Int := 2 ^ 63 - 1

/-- `std::numeric_limits<std::int64_t>::min()`. -/
def i64Min : Int := -2 ^ 63

/-- `add_checked<std::uint64_t>`. -/
def addChecked (a b : Nat) : Option Nat :=
  if a > u64Max - b then none else some (a + b)

/-- `mul_checked<std::uint64_t>`. -/
def mulChecked (a b : Nat) : Option Nat :=
  if a ≠ 0 ∧ b > u64Max / a then none else some (a * b)

/-- `increment_checked<std::uint64_t>`. -/
def incrementChecked (value : Nat) : Option Nat := addChecked value 1

/-- `increment_checked<std::uint32_t>`. -/
def incrementChecked32 (value : Nat) : Option Nat :=
  if value > u32Max - 1 then none else some (value + 1)

/-- `narrow_checked<std::uint32_t>` of a 64-bit value. -/
def narrowChecked32 (value : Nat) : Option Nat :=
  if value > u32Max then none else some value

theorem incrementChecked_eq (value : Nat) :
    incrementChecked value = if value < u64Max then some (value + 1) else none := by
  have hmax : 1 ≤ u64Max := by decide
  unfold incrementChecked addChecked
  by_cases h : value < u64Max
  · rw [if_pos h, if_neg (by omega)]
  · rw [if_neg h, if_pos (by omega)]

theorem mulChecked_eq (a b : Nat) :
    mulChecked a b = if a * b ≤ u64Max then some (a * b) else none := by
  unfold mulChecked
  rcases Nat.eq_zero_or_pos a with rfl | ha
  · rw [if_neg (fun h => h.1 rfl), Nat.zero_mul, if_pos (Nat.zero_le _)]
  · have hfits : a * b ≤ u64Max ↔ b ≤ u64Max / a := by
      rw [Nat.le_div_iff_mul_le ha, Nat.mul_comm b a]
    by_cases hfit : a * b ≤ u64Max
    · rw [if_pos hfit, if_neg (fun h => Nat.not_le.mpr h.2 (hfits.mp hfit))]
    · rw [if_neg hfit, if_pos ⟨ha.ne', Nat.not_le.mp (fun h => hfit (hfits.mpr h))⟩]

theorem narrowChecked32_eq_some {value result : Nat} :
    narrowChecked32 value = some result ↔ value ≤ u32Max ∧ result = value := by
  unfold narrowChecked32
  split_ifs with h
  · simp [Nat.not_le.mpr h]
  · simp [Nat.not_lt.mp h, eq_comm]

theorem incrementChecked_eq_some {value next : Nat} (h : incrementChecked value = some next) :
    value < u64Max ∧ next = value + 1 := by
  rw [incrementChecked_eq] at h
  split_ifs at h with hlt
  exact ⟨hlt, (Option.some.inj h).symm⟩

/-! ### Time (`clock.hpp`)

Both `Duration` and `TimePoint` are a signed 64-bit count of nanoseconds. -/

abbrev TimePoint := Int
abbrev Duration := Int

/-- `saturating_add`. -/
def saturatingAdd (base : TimePoint) (delta : Duration) : TimePoint :=
  if 0 < delta ∧ i64Max - delta < base then i64Max
  else if delta < 0 ∧ base < i64Min - delta then i64Min
  else base + delta

theorem le_saturatingAdd (hbase : base ≤ i64Max) (hdelta : 0 ≤ delta) :
    base ≤ saturatingAdd base delta := by
  unfold saturatingAdd
  split_ifs with hhigh hlow
  · exact hbase
  · exact absurd hlow.1 (not_lt.mpr hdelta)
  · exact le_add_of_nonneg_right hdelta

/-- A time within the sum is within the saturated sum. -/
theorem le_saturatingAdd_of_le {time : Int} (htime : time ≤ i64Max) (hdelta : 0 ≤ delta)
    (h : time ≤ base + delta) : time ≤ saturatingAdd base delta := by
  unfold saturatingAdd
  split_ifs with hhigh hlow
  · exact htime
  · exact absurd hlow.1 (not_lt.mpr hdelta)
  · exact h

/-- `describe_time`. -/
def describeTime (point : TimePoint) : String := toString point ++ "ns"

/-- `describe_duration`: nanoseconds, and milliseconds with three decimals from
one millisecond on. -/
def describeDuration (duration : Duration) : String :=
  let out := toString duration ++ "ns"
  if 1000000 ≤ duration ∨ duration ≤ -1000000 then
    let millis := duration.natAbs / 1000000
    let fraction := toString (duration.natAbs % 1000000 / 1000)
    out ++ " (" ++ (if duration < 0 then "-" else "") ++ toString millis ++ "." ++
      String.ofList (List.replicate (3 - min 3 fraction.length) '0') ++ fraction ++ "ms)"
  else out

/-! ### Digests (`digest.hpp`) -/

/-- The 64-bit FNV-1a accumulator. -/
structure Digest64 where
  state : Nat := 1469598103934665603
  deriving DecidableEq, Repr

namespace Digest64

def prime : Nat := 1099511628211

/-- One byte of input. -/
def byte (d : Digest64) (b : Nat) : Digest64 :=
  ⟨(d.state ^^^ b) * prime % 2 ^ 64⟩

/-- `update(std::string_view)`. -/
def update (d : Digest64) (text : String) : Digest64 :=
  text.toList.foldl (fun d c => d.byte c.toNat) d

/-- `update_u64`: eight bytes, least significant first. -/
def updateU64 (d : Digest64) (value : Nat) : Digest64 :=
  (List.range 8).foldl (fun d i => d.byte ((value >>> (8 * i)) % 256)) d

/-- `update_bool`. -/
def updateBool (d : Digest64) (value : Bool) : Digest64 := d.updateU64 (if value then 1 else 0)

/-- `update_tagged`. -/
def updateTagged (d : Digest64) (tag value : String) : Digest64 :=
  (((d.updateU64 tag.length).update tag).updateU64 value.length).update value

/-- `value()`. -/
def value (d : Digest64) : Nat := d.state

end Digest64

/-- `static_cast<std::uint64_t>` of a signed count. -/
def castU64 (count : Int) : Nat := (count % 2 ^ 64).toNat

/-- `hex_u32`: eight lower-case digits. -/
def hexU32 (value : Nat) : String :=
  String.ofList ((List.range 8).map (fun i => Nat.digitChar ((value >>> (4 * (7 - i))) % 16)))

/-- `hex_u64`: sixteen lower-case digits. -/
def hexU64 (value : Nat) : String :=
  String.ofList ((List.range 16).map (fun i => Nat.digitChar ((value >>> (4 * (15 - i))) % 16)))

example : hexU64 255 = "00000000000000ff" := by decide

example : describeDuration (-1500000) = "-1500000ns (-1.500ms)" := by decide

end DrainFabric
