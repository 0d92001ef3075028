import DrainFabric.Lib.Cut
import DrainFabric.Persistence

/-!
# The boot marker

`runtime.cpp`: the boot marker next to the snapshot records the authority line of the last
start, and the line of the next start is above it. `peekBootRecord` reads a marker and
`bootMarkerText` is what is written.
-/

namespace DrainFabric

open Lib

/-- `BootRecord`. -/
structure BootRecord where
  incarnation : Nat := 0
  epoch : Nat := 0
  deriving DecidableEq, Repr

/-- `kBootMarkerPrefix`. -/
def bootMarkerHead : List Char := "DRNFBOOT 2".toList

/-- One round of `parse_decimal`. -/
def decimalStep (value : Nat) (character : Char) : Result Nat := do
  rejectIf (¬ character.isDigit) .persistenceCorrupt "boot marker value is not numeric"
  let next ← orFail (mulChecked value 10) .boundsExceeded "boot marker value overflows"
  orFail (addChecked next (character.toNat - '0'.toNat)) .boundsExceeded
    "boot marker value overflows"

/-- `parse_decimal`. -/
def parseDecimal (digits : List Char) : Result Nat := do
  rejectIf (digits = []) .persistenceCorrupt "boot marker line is empty"
  digits.foldlM decimalStep 0

/-- The checksum line of a marker. -/
def bootChecksum (incarnation epoch : List Char) : List Char :=
  (hexU32 (crc32c (bytesOf (incarnation ++ ' ' :: epoch))).toNat).toList

/-- `peek_boot_record`. Without a marker both numbers are zero. -/
def peekBootRecord : Option (List Char) → Result BootRecord
  | none => .ok {}
  | some content => do
    let (head, rest) ← orFail (cut '\n' (content.take 192)) .persistenceCorrupt
      "boot marker has an unexpected prefix"
    rejectIf (head ≠ bootMarkerHead) .persistenceCorrupt "boot marker has an unexpected prefix"
    let (incarnationDigits, rest) ← orFail (cut '\n' rest) .persistenceCorrupt
      "boot marker is truncated"
    let (epochDigits, rest) ← orFail (cut '\n' rest) .persistenceCorrupt
      "boot marker is truncated"
    let (checksum, _) ← orFail (cut '\n' rest) .persistenceCorrupt "boot marker is truncated"
    let incarnation ← parseDecimal incarnationDigits
    let epoch ← parseDecimal epochDigits
    rejectIf (checksum ≠ bootChecksum incarnationDigits epochDigits) .persistenceCorrupt
      "boot marker checksum does not match"
    return { incarnation, epoch }

/-- What `write_boot_marker` writes. -/
def bootMarkerText (record : BootRecord) : List Char :=
  let incarnation := (toString record.incarnation).toList
  let epoch := (toString record.epoch).toList
  bootMarkerHead ++ '\n' :: (incarnation ++ '\n' :: (epoch ++ '\n' ::
    (bootChecksum incarnation epoch ++ ['\n'])))

end DrainFabric
