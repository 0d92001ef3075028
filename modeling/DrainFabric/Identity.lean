import DrainFabric.Json
import DrainFabric.Lib.BinarySearch
import DrainFabric.Lib.Cut
import DrainFabric.Lib.Except
import Mathlib.Data.Prod.Lex
import Mathlib.Data.String.Basic

/-!
# Identities and drain targets

`identity.hpp`: slug and numeric identities, and the fully qualified target of a
drain.

The C++ type of an identity is unique to its kind, which keeps two kinds from
being mixed up. Here a slug is a `String` and a number a `Nat`, named by kind.
-/

namespace DrainFabric

abbrev ResourceId := String
abbrev DomainId := String
abbrev HolderId := String
abbrev GroupId := String
abbrev ServiceId := String
abbrev NodeId := String

abbrev DrainId := Nat
abbrev DrainSetId := Nat
abbrev ObligationId := Nat
abbrev Attempt := Nat
abbrev Generation := Nat
abbrev Epoch := Nat
abbrev IncarnationId := Nat
abbrev AuthorityId := Nat
abbrev EvidenceSeq := Nat
abbrev Revision := Nat
abbrev RequestNonce := Nat

abbrev CapacityUnits := Nat
abbrev MemberCount := Nat
abbrev ByteCount := Nat

/-! ### Slugs -/

def maxSlugLength : Nat := 128

/-- `is_slug_char`. -/
def isSlugChar (c : Char) : Bool :=
  ('A' ≤ c && c ≤ 'Z') || ('a' ≤ c && c ≤ 'z') || ('0' ≤ c && c ≤ '9') ||
    c == '_' || c == '.' || c == ':' || c == '-'

/-- `is_valid_slug`. -/
def isValidSlug (text : String) : Bool :=
  !text.isEmpty && text.length ≤ maxSlugLength && text.toList.all isSlugChar

/-- `SlugId::parse`. -/
def parseSlug (text : String) : Option String :=
  if isValidSlug text then some text else none

/-- An identity that a writer leaves empty when it is not set: an absent or empty
member stands for the empty identity, any other text has to be a slug. -/
def optionalSlug (value : JsonValue) (key : String) (code : ErrorCode) (message : String) :
    Result String :=
  match value.findString key with
  | none => .ok ""
  | some text => if text.isEmpty then .ok "" else orFail (parseSlug text) code message

/-! ### Targets -/

inductive TargetKind
  | port | link | switch | path | service | resource
  deriving DecidableEq, Repr

namespace TargetKind

/-- The numeric value of the enumerator. -/
def rank : TargetKind → Nat
  | port => 0
  | link => 1
  | switch => 2
  | path => 3
  | service => 4
  | resource => 5

theorem rank_injective : Function.Injective rank := by
  intro a b h
  cases a <;> cases b <;> simp_all [rank]

def toString : TargetKind → String
  | port => "port"
  | link => "link"
  | switch => "switch"
  | path => "path"
  | service => "service"
  | resource => "resource"

/-- `target_kind_from_string`. -/
def fromString (text : String) : Option TargetKind :=
  if text = "port" then some port
  else if text = "link" then some link
  else if text = "switch" then some switch
  else if text = "path" then some path
  else if text = "service" then some service
  else if text = "resource" then some resource
  else none

@[simp] theorem fromString_toString (kind : TargetKind) : fromString kind.toString = some kind := by
  cases kind <;> decide

end TargetKind

/-- `DrainTarget`: what is drained, its identity and its failure domain. -/
structure DrainTarget where
  kind : TargetKind := .resource
  id : ResourceId := ""
  domain : DomainId := ""
  deriving DecidableEq, Repr

namespace DrainTarget

/-- The members in declaration order, which is how the defaulted `<=>` compares. -/
def lexKey (t : DrainTarget) : ℕ ×ₗ String ×ₗ String :=
  toLex (t.kind.rank, toLex (t.id, t.domain))

theorem lexKey_injective : Function.Injective lexKey := by
  rintro ⟨ka, ia, da⟩ ⟨kb, ib, db⟩ h
  simp only [lexKey, EmbeddingLike.apply_eq_iff_eq, Prod.mk.injEq] at h
  obtain ⟨hk, hi, hd⟩ := h
  rw [TargetKind.rank_injective hk, hi, hd]

/-- The order of `std::map<DrainTarget, …>`. -/
instance : LinearOrder DrainTarget := LinearOrder.lift' lexKey lexKey_injective

/-- `to_string`: `<kind>:<id>@<domain>`. -/
def toString (t : DrainTarget) : String :=
  t.kind.toString ++ ":" ++ t.id ++ "@" ++ t.domain

/-- An empty text stands for the empty identity. -/
def parseOptional (text : String) : Option String :=
  if text.isEmpty then some "" else parseSlug text

/-- `parse`: the first `:` ends the kind, the first `@` behind it the identity. -/
def parse (text : String) : Option DrainTarget := do
  let (kindText, rest) ← Lib.cut ':' text.toList
  let (idText, domainText) := (Lib.cut '@' rest).getD (rest, [])
  let kind ← TargetKind.fromString (String.ofList kindText)
  let id ← parseSlug (String.ofList idText)
  let domain ← parseOptional (String.ofList domainText)
  return { kind, id, domain }

/-- `to_json(const DrainTarget&)`. -/
def toJson (t : DrainTarget) : JsonValue :=
  .object [("kind", .string t.kind.toString), ("id", .string t.id), ("domain", .string t.domain)]

/-- `drain_target_from_json`. -/
def fromJson (value : JsonValue) : Result DrainTarget := do
  rejectIf (¬ value.isObject) .protocolError "drain target must be a json object"
  let kindText ← orFail (value.findString "kind")
    .malformedIdentity "drain target requires string kind and id"
  let idText ← orFail (value.findString "id")
    .malformedIdentity "drain target requires string kind and id"
  let kind ← orFail (TargetKind.fromString kindText)
    .malformedIdentity "unknown drain target kind"
  let id ← orFail (parseSlug idText) .malformedIdentity "malformed drain target resource id"
  let domain ← optionalSlug value "domain"
    .malformedIdentity "malformed drain target failure domain"
  return { kind, id, domain }

end DrainTarget

/-! ### The canonical order of a set -/

/-- `target_order_less`: failure domain first, then kind, then identity. -/
def targetOrderLess (a b : DrainTarget) : Bool :=
  if a.domain ≠ b.domain then a.domain < b.domain
  else if a.kind.rank ≠ b.kind.rank then a.kind.rank < b.kind.rank
  else a.id < b.id

instance : IsStrictTotalOrder DrainTarget (Lib.Less targetOrderLess) where
  irrefl a := by simp [Lib.Less, targetOrderLess]
  trans a b c hab hbc := by
    simp only [Lib.Less, targetOrderLess] at *
    grind
  trichotomous a b hab hba := by
    have hrank : a.kind.rank = b.kind.rank → a.kind = b.kind :=
      fun h => TargetKind.rank_injective h
    obtain ⟨ka, ia, da⟩ := a
    obtain ⟨kb, ib, db⟩ := b
    simp only [Lib.Less, targetOrderLess] at *
    grind

end DrainFabric
