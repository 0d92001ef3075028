import DrainFabric.Base

/-!
# JSON values

The tree of `json.hpp`: what snapshots are written to and recovered from. Only
the value model and its accessors are here; the text form is not needed to
recover a snapshot that was taken in memory.

Objects keep their members in insertion order. The writers of the runtime never
set a key twice, so an object they build is the list of its members.
-/

namespace DrainFabric

/-- `JsonValue`. A double is kept as its bit pattern. -/
inductive JsonValue
  | null
  | bool (value : Bool)
  | int (value : Int)
  | uint (value : Nat)
  | real (bits : UInt64)
  | string (value : String)
  | array (items : List JsonValue)
  | object (members : List (String × JsonValue))

namespace JsonValue

def isNumber : JsonValue → Bool
  | int _ | uint _ | real _ => true
  | _ => false

def isBool : JsonValue → Bool
  | bool _ => true
  | _ => false

def isArray : JsonValue → Bool
  | array _ => true
  | _ => false

def isObject : JsonValue → Bool
  | object _ => true
  | _ => false

/-- `as_bool`. -/
def asBool (fallback : Bool) : JsonValue → Bool
  | bool value => value
  | _ => fallback

/-- `as_int`: an unsigned value above the signed range is not converted, it reads
as the fallback. -/
def asInt (fallback : Int) : JsonValue → Int
  | int value => value
  | uint value => if (value : Int) ≤ i64Max then (value : Int) else fallback
  | _ => fallback

/-- `as_uint`. -/
def asUint (fallback : Nat) : JsonValue → Nat
  | uint value => value
  | int value => if 0 ≤ value then value.toNat else fallback
  | _ => fallback

/-- `as_array`. -/
def asArray : JsonValue → List JsonValue
  | array items => items
  | _ => []

/-- `size`. -/
def size : JsonValue → Nat
  | array items => items.length
  | object members => members.length
  | string value => value.length
  | _ => 0

/-- `find`: the member with the key, when this is an object that has one. -/
def find (key : String) : JsonValue → Option JsonValue
  | object members => members.lookup key
  | _ => none

/-- The member with the key, when it is a string. -/
def findString (value : JsonValue) (key : String) : Option String :=
  match value.find key with
  | some (.string text) => some text
  | _ => none

/-- The member with the key, when it is an array. -/
def findArray (value : JsonValue) (key : String) : Option (List JsonValue) :=
  match value.find key with
  | some (.array items) => some items
  | _ => none

/-- `get_string`. -/
def getString (value : JsonValue) (key : String) (fallback : String := "") : String :=
  (value.findString key).getD fallback

/-- `get_uint`. -/
def getUint (value : JsonValue) (key : String) (fallback : Nat := 0) : Nat :=
  match value.find key with
  | some found => found.asUint fallback
  | none => fallback

/-- `get_int`. -/
def getInt (value : JsonValue) (key : String) (fallback : Int := 0) : Int :=
  match value.find key with
  | some found => found.asInt fallback
  | none => fallback

/-- `get_bool`. -/
def getBool (value : JsonValue) (key : String) (fallback : Bool := false) : Bool :=
  match value.find key with
  | some found => found.asBool fallback
  | none => fallback

/-- `read_u64`, the helper every component repeats. -/
def readU64 (value : JsonValue) (key : String) (fallback : Nat := 0) : Nat :=
  match value.find key with
  | some found => if found.isNumber then found.asUint fallback else fallback
  | none => fallback

/-- `read_i64`. -/
def readI64 (value : JsonValue) (key : String) (fallback : Int := 0) : Int :=
  match value.find key with
  | some found => if found.isNumber then found.asInt fallback else fallback
  | none => fallback

/-- `read_bool`. -/
def readBool (value : JsonValue) (key : String) (fallback : Bool) : Bool :=
  match value.find key with
  | some found => if found.isBool then found.asBool fallback else fallback
  | none => fallback

/-- The member a writer stores for a time or a duration: the signed count is cast
to an unsigned number. -/
def ofCount (count : Int) : JsonValue := uint (castU64 count)

/-! ### Reading back what was written -/

@[simp] theorem find_object_cons (key k : String) (v : JsonValue)
    (rest : List (String × JsonValue)) :
    (object ((k, v) :: rest)).find key = if key = k then some v else (object rest).find key := by
  simp only [find, List.lookup_cons]
  by_cases h : key = k
  · simp [h]
  · have hne : (key == k) = false := by simpa using h
    rw [hne, if_neg h]

@[simp] theorem find_object_nil (key : String) : (object []).find key = none := rfl

@[simp] theorem isNumber_uint (value : Nat) : (uint value).isNumber = true := rfl

@[simp] theorem asUint_uint (value fallback : Nat) : (uint value).asUint fallback = value := rfl

@[simp] theorem isObject_object (members : List (String × JsonValue)) :
    (object members).isObject = true := rfl

end JsonValue

/-- The count a reader recovers from `JsonValue.ofCount`. The cast does not keep
the sign: a negative count is written as a number above the signed range, which
`as_int` refuses, and reads back as zero. -/
def persistedCount (count : Int) : Int := (JsonValue.ofCount count).asInt 0

theorem asInt_ofCount {count : Int} (h : 0 ≤ count) (hmax : count ≤ i64Max) (fallback : Int) :
    (JsonValue.ofCount count).asInt fallback = count := by
  have hcast : ((castU64 count : Nat) : Int) = count := by
    unfold castU64 i64Max at *
    rw [Int.emod_eq_of_lt h (by omega), Int.toNat_of_nonneg h]
  simp only [JsonValue.ofCount, JsonValue.asInt, hcast, if_pos hmax]

theorem persistedCount_of_nonneg {count : Int} (h : 0 ≤ count) (hmax : count ≤ i64Max) :
    persistedCount count = count :=
  asInt_ofCount h hmax 0

@[simp] theorem persistedCount_zero : persistedCount 0 = 0 := by decide

/-- Every negative time of the machine type is lost. -/
theorem persistedCount_of_neg {count : Int} (h : count < 0) (hmin : i64Min ≤ count) :
    persistedCount count = 0 := by
  have hcast : ((castU64 count : Nat) : Int) = count + 2 ^ 64 := by
    unfold castU64 i64Min at *
    have hmod : count % 2 ^ 64 = count + 2 ^ 64 := by omega
    rw [hmod, Int.toNat_of_nonneg (by omega)]
  have hbig : ¬ ((castU64 count : Nat) : Int) ≤ i64Max := by
    rw [hcast]
    unfold i64Min i64Max at *
    omega
  simp only [persistedCount, JsonValue.ofCount, JsonValue.asInt, if_neg hbig]

end DrainFabric
