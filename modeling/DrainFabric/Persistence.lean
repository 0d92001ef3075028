import DrainFabric.Json.Text
import DrainFabric.Identity
import DrainFabric.Bytes

/-!
# Durable state

`persistence.cpp`: the snapshot file, how it is replaced and how it is read.

* `image` — the bytes of a snapshot: header, payload and three checksums;
* `save` — the file-system operations of a save, one after the other. Each can fail, and
  the process can stop before any of them (`Faults`);
* `load` — the live file, or the backup when the live file is rejected.

An operation that succeeds is atomic and durable; one that fails leaves what it was
writing in any state (`Faults.left`). Reading never fails: a file holds the bytes that
were written.
-/

namespace DrainFabric

open Lib

/-! ### The snapshot file -/

/-- `kMagic`. -/
def snapshotMagic : List UInt8 := [0x44, 0x52, 0x4e, 0x46, 0x41, 0x42, 0x00, 0x01]

/-- `kReservedMarker`. -/
def reservedMarker : Nat := 0xffffffff

/-- `kSnapshotHeaderBytes`. -/
def snapshotHeaderBytes : Nat := 48

/-- `kSnapshotOverheadBytes`. -/
def snapshotOverheadBytes : Nat := snapshotHeaderBytes + 4

/-- `SnapshotInfo`. -/
structure SnapshotInfo where
  formatVersion : Nat
  sequence : Nat
  incarnation : IncarnationId
  payloadBytes : Nat
  payloadCrc : Nat
  fromBackup : Bool
  source : String
  deriving DecidableEq

/-- `Persistence`; of its limits only the payload bound is read. -/
structure Persistence where
  path : String
  maxSnapshotBytes : Nat := 32 * 1024 * 1024
  writtenSequence : Nat := 0
  deriving DecidableEq

/-- The files of one state path. -/
structure Disk where
  live : Option (List UInt8) := none
  backup : Option (List UInt8) := none
  temporary : Option (List UInt8) := none
  deriving DecidableEq

namespace Persistence

variable (reals : RealText)

/-- `backup_path`. -/
def backupPath (p : Persistence) : String := p.path ++ ".bak"

/-- The first twelve bytes of the header. -/
def magicHeader : List UInt8 := snapshotMagic ++ putU16 snapshotFormatVersion ++ putU16 0

/-- The header, over which the checksum of the file starts. -/
def header (payload : List UInt8) (sequence : Nat) (incarnation : IncarnationId) : List UInt8 :=
  magicHeader ++ putU32 (crc32c magicHeader).toNat ++ putU64 sequence ++ putU64 incarnation ++
    putU64 payload.length ++ putU32 (crc32c payload).toNat ++ putU32 reservedMarker

/-- The bytes of a snapshot file. -/
def fileOf (payload : List UInt8) (sequence : Nat) (incarnation : IncarnationId) : List UInt8 :=
  let body := header payload sequence incarnation ++ payload
  body ++ putU32 (crc32c body).toNat

/-- What `save` is about to write, with its sequence. -/
def image (p : Persistence) (snapshot : JsonValue) (incarnation : IncarnationId) :
    Result (Nat × List UInt8) := do
  let payload := snapshot.dump reals
  rejectIf (payload.length > p.maxSnapshotBytes) .boundsExceeded
    "snapshot payload exceeds the configured bound"
  let sequence ← orFail (incrementChecked p.writtenSequence) .boundsExceeded
    "snapshot sequence space exhausted"
  return (sequence, fileOf (bytesOf payload) sequence incarnation)

/-- `read_whole_file`. -/
def readWholeFile (file : String) (content : Option (List UInt8)) (maxBytes : Nat) :
    Result (List UInt8) := do
  let bytes ← orFail content .notFound ("no snapshot at " ++ file)
  rejectIf (bytes.length > maxBytes) .boundsExceeded "snapshot file exceeds the configured bound"
  return bytes

/-- The checks of `read_file` on the bytes, before the payload is parsed. -/
def checkFile (p : Persistence) (bytes : List UInt8) : Status := do
  rejectIf (bytes.length < snapshotOverheadBytes) .persistenceCorrupt
    "snapshot is shorter than its fixed overhead"
  rejectIf (bytes.take 8 ≠ snapshotMagic) .persistenceCorrupt "snapshot magic does not match"
  rejectIf ((crc32c (bytes.take 12)).toNat ≠ getU32 bytes 12) .persistenceCorrupt
    "snapshot header checksum does not match"
  rejectIf (getU16 bytes 8 ≠ snapshotFormatVersion) .persistenceCorrupt
    "snapshot format version is not supported"
  rejectIf (getU16 bytes 10 ≠ 0) .persistenceCorrupt "snapshot header flags must be zero"
  rejectIf (getU32 bytes 44 ≠ reservedMarker) .persistenceCorrupt
    "snapshot reserved marker is wrong"
  rejectIf (getU64 bytes 32 > p.maxSnapshotBytes) .boundsExceeded
    "snapshot payload length exceeds the configured bound"
  rejectIf (addChecked snapshotOverheadBytes (getU64 bytes 32) ≠ some bytes.length)
    .persistenceCorrupt "snapshot length field does not match the file size"
  rejectIf ((crc32c ((bytes.drop snapshotHeaderBytes).take (getU64 bytes 32))).toNat ≠
    getU32 bytes 40) .persistenceCorrupt "snapshot payload checksum does not match"
  let footer := snapshotHeaderBytes + getU64 bytes 32
  rejectIf ((crc32c (bytes.take footer)).toNat ≠ getU32 bytes footer) .persistenceCorrupt
    "snapshot file checksum does not match"

/-- `read_file`. The sum that bounds the file is not checked, and wraps around. -/
def readFile (p : Persistence) (file : String) (content : Option (List UInt8))
    (fromBackup : Bool) : Result (JsonValue × SnapshotInfo) := do
  let bytes ← readWholeFile file content ((p.maxSnapshotBytes + snapshotOverheadBytes) % 2 ^ 64)
  p.checkFile bytes
  let length := getU64 bytes 32
  let text := textOf ((bytes.drop snapshotHeaderBytes).take length)
  let limits : JsonLimits := { maxTotalBytes := p.maxSnapshotBytes }
  let value ← (jsonParse reals text limits).mapError (fun err =>
    ⟨.persistenceCorrupt, "snapshot payload is not valid json: " ++ err.message⟩)
  return (value,
    { formatVersion := getU16 bytes 8, sequence := getU64 bytes 16,
      incarnation := getU64 bytes 24, payloadBytes := length, payloadCrc := getU32 bytes 40,
      fromBackup, source := file })

/-- `load`. -/
def load (p : Persistence) (disk : Disk) : Result (JsonValue × SnapshotInfo) :=
  match p.readFile reals p.path disk.live false with
  | .ok found => .ok found
  | .error err =>
    if err.code = .notFound then .error err
    else
      match p.readFile reals p.backupPath disk.backup true with
      | .ok found => .ok found
      | .error err' =>
        fail err.code ("live snapshot rejected (" ++ err.message ++
          ") and the backup is unusable (" ++ err'.message ++ ")")

end Persistence

/-! ### Replacing the file -/

/-- The file-system operations of a save, in the order of the source. -/
inductive SaveOp
  | removeTemporary | writeTemporary | checkLive | removeBackup | copyBackup | removeAfterCopy
  | rename | removeLive | renameAgain | removeAfterRename
  deriving DecidableEq

/-- What happens to the operations of one save: which of them fail, what a failed write
leaves in its file, and before which operation the process stops. -/
structure Faults where
  fails : SaveOp → Bool := fun _ => false
  left : SaveOp → Option (List UInt8) := fun _ => none
  message : SaveOp → String := fun _ => ""
  stop : Option SaveOp := none

/-- A process working on the files: what it leaves, and its result unless it was stopped. -/
def Fs (α : Type) : Type := Disk → Disk × Option α

namespace Fs

/-- What comes after a process that was not stopped. -/
def andThen {α β : Type} (out : Disk × Option α) (f : α → Fs β) : Disk × Option β :=
  match out with
  | (disk, none) => (disk, none)
  | (disk, some a) => f a disk

instance : Monad Fs where
  pure a := fun disk => (disk, some a)
  bind x f := fun disk => andThen (x disk) f

/-- The files as they are. -/
def get : Fs Disk := fun disk => (disk, some disk)

end Fs

/-- One operation: its effect, or what it leaves when it fails, and whether it succeeded. -/
def attempt (faults : Faults) (op : SaveOp) (effect : Disk → Disk)
    (broken : Disk → Disk := id) : Fs Bool := fun disk =>
  if faults.stop = some op then (disk, none)
  else if faults.fails op then (broken disk, some false)
  else (effect disk, some true)

namespace Disk

def removeTemporary (disk : Disk) : Disk := { disk with temporary := none }

def write (bytes : Option (List UInt8)) (disk : Disk) : Disk := { disk with temporary := bytes }

def removeBackup (disk : Disk) : Disk := { disk with backup := none }

def setBackup (bytes : Option (List UInt8)) (disk : Disk) : Disk := { disk with backup := bytes }

def copy (disk : Disk) : Disk := disk.setBackup disk.live

def removeLive (disk : Disk) : Disk := { disk with live := none }

def rename (disk : Disk) : Disk := { disk with live := disk.temporary, temporary := none }

end Disk

namespace Persistence

variable (reals : RealText)

/-- `exists`: an error reads as absent. -/
def existsLive (faults : Faults) : Fs Bool := do
  let answered ← attempt faults .checkLive id
  return answered && (← Fs.get).live.isSome

/-- The previous live file becomes the backup; whether the save goes on. -/
def rotate (faults : Faults) : Fs Bool := do
  if ← existsLive faults then
    let _ ← attempt faults .removeBackup Disk.removeBackup
    if ← attempt faults .copyBackup Disk.copy (Disk.setBackup (faults.left .copyBackup)) then
      return true
    let _ ← attempt faults .removeAfterCopy Disk.removeTemporary
    return false
  return true

/-- The temporary file becomes the live file. Some platforms cannot replace an existing
file with `rename`. -/
def install (faults : Faults) : Fs Bool := do
  if ← attempt faults .rename Disk.rename then return true
  let _ ← attempt faults .removeLive Disk.removeLive
  if ← attempt faults .renameAgain Disk.rename then return true
  let _ ← attempt faults .removeAfterRename Disk.removeTemporary
  return false

/-- The rest of a save, once the temporary file is written. -/
def commit (faults : Faults) : Fs Status := do
  if ← rotate faults then
    if ← install faults then return .ok ()
    return fail .persistenceIo
      ("cannot install the new snapshot: " ++ faults.message .removeAfterRename)
  return fail .persistenceIo
    ("cannot rotate the previous snapshot: " ++ faults.message .removeAfterCopy)

/-- The operations of `save` on the files, for the bytes it writes. -/
def replace (faults : Faults) (bytes : List UInt8) : Fs Status := do
  let _ ← attempt faults .removeTemporary Disk.removeTemporary
  if ← attempt faults .writeTemporary (Disk.write bytes)
      (Disk.write (faults.left .writeTemporary)) then
    commit faults
  else return fail .persistenceIo (faults.message .writeTemporary)

/-- `save`. -/
def save (p : Persistence) (faults : Faults) (snapshot : JsonValue) (incarnation : IncarnationId) :
    Fs (Persistence × Status) :=
  match p.image reals snapshot incarnation with
  | .error err => pure (p, .error err)
  | .ok (sequence, bytes) => do
    match ← replace faults bytes with
    | .error err => return (p, .error err)
    | .ok () => return ({ p with writtenSequence := sequence }, .ok ())

end Persistence

end DrainFabric
