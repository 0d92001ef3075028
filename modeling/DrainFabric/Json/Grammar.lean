import DrainFabric.Json.Text

/-!
# The grammar of JSON texts

The grammar of RFC 8259 over bytes, with the value each text stands for. A production is
a relation between a text and what it denotes, and says nothing about how the text is
read: `Json.Acceptance` shows that the parser accepts the texts of this grammar, within
its limits, and no others.

* `Chars` — `*char` of a string, with the bytes it denotes. A `\u` escape is one code
  point, or the high half of a pair that is followed by its low half;
* `Number` — the parts of a number token. A token that is an integer of 64 bits denotes
  it, every other token denotes the double it converts to;
* `Value`, `Text` — values and whole texts;
* `JsonValue.Within` — what the limits of the parser bound, read off the value.
-/

namespace DrainFabric

namespace JsonGrammar

open JsonText

/-- `ws`. -/
def Ws (text : List Char) : Prop := ∀ c ∈ text, c = ' ' ∨ c = '\t' ∨ c = '\n' ∨ c = '\r'

theorem ws_nil : Ws [] := fun _ hc => absurd hc List.not_mem_nil

/-! ### Numbers -/

/-- `1*DIGIT`. -/
def Digits (text : List Char) : Prop := text ≠ [] ∧ ∀ c ∈ text, c.isDigit = true

/-- `int`. -/
inductive IntPart : List Char → Prop
  | zero : IntPart ['0']
  | positive {c : Char} {rest : List Char} : c.isDigit = true → c ≠ '0' →
      (∀ d ∈ rest, d.isDigit = true) → IntPart (c :: rest)

/-- `[ frac ]`. -/
inductive FracPart : List Char → Prop
  | none : FracPart []
  | point {digits : List Char} : Digits digits → FracPart ('.' :: digits)

/-- `[ exp ]`. -/
inductive ExpPart : List Char → Prop
  | none : ExpPart []
  | mark {mark : Char} {sign digits : List Char} : mark = 'e' ∨ mark = 'E' →
      sign = [] ∨ sign = ['+'] ∨ sign = ['-'] → Digits digits →
      ExpPart (mark :: (sign ++ digits))

/-- `number`, in its parts. -/
structure Number where
  minus : Bool
  int : List Char
  frac : List Char
  exp : List Char

namespace Number

def text (n : Number) : List Char := (if n.minus then ['-'] else []) ++ n.int ++ n.frac ++ n.exp

structure WellFormed (n : Number) : Prop where
  int : IntPart n.int
  frac : FracPart n.frac
  exp : ExpPart n.exp

/-- The 64-bit integer the token is, if it is one. -/
def integer (n : Number) : Option JsonValue :=
  if n.frac = [] ∧ n.exp = [] then fromChars n.minus n.int else none

/-- What the token denotes. -/
def value (reals : RealText) (n : Number) : JsonValue :=
  n.integer.getD (.real (reals.scan n.text))

/-- A token that is no 64-bit integer converts to a finite double. -/
def Finite (reals : RealText) (n : Number) : Prop :=
  n.integer = none → isFinite (reals.scan n.text) = true

end Number

/-! ### Strings -/

/-- `4HEXDIG`, as a number. -/
def hex4 : List Char → Option Nat
  | [a, b, c, d] => do
    return (((← hexValue a) * 16 + (← hexValue b)) * 16 + (← hexValue c)) * 16 + (← hexValue d)
  | _ => none

def IsHigh (code : Nat) : Prop := 0xd800 ≤ code ∧ code ≤ 0xdbff

def IsLow (code : Nat) : Prop := 0xdc00 ≤ code ∧ code ≤ 0xdfff

/-- The escapes of one character, with what they denote. -/
def simpleEscapes : List (Char × Char) :=
  [('"', '"'), ('\\', '\\'), ('/', '/'), ('b', '\x08'), ('f', '\x0c'), ('n', '\n'), ('r', '\r'),
    ('t', '\t')]

/-- `char`, with the bytes it denotes. -/
inductive StringChar : List Char → List Char → Prop
  | unescaped {c : Char} : 0x20 ≤ c.toNat → c ≠ '"' → c ≠ '\\' → StringChar [c] [c]
  | escape {c byte : Char} : (c, byte) ∈ simpleEscapes → StringChar ['\\', c] [byte]
  | unicode {digits : List Char} {code : Nat} : hex4 digits = some code → ¬ IsHigh code →
      ¬ IsLow code → StringChar ('\\' :: 'u' :: digits) (appendUtf8 code)
  | pair {digits digits' : List Char} {high low : Nat} : hex4 digits = some high →
      hex4 digits' = some low → IsHigh high → IsLow low →
      StringChar ('\\' :: 'u' :: (digits ++ '\\' :: 'u' :: digits'))
        (appendUtf8 (0x10000 + (high - 0xd800) * 0x400 + (low - 0xdc00)))

/-- `*char`. -/
inductive Chars : List Char → List Char → Prop
  | nil : Chars [] []
  | cons {text bytes text' bytes' : List Char} : StringChar text bytes → Chars text' bytes' →
      Chars (text ++ text') (bytes ++ bytes')

theorem StringChar.ne_nil {char bytes : List Char} (h : StringChar char bytes) : char ≠ [] := by
  cases h <;> simp

theorem Chars.append {text bytes text' bytes' : List Char} (h : Chars text bytes)
    (h' : Chars text' bytes') : Chars (text ++ text') (bytes ++ bytes') := by
  induction h with
  | nil => exact h'
  | cons hchar _ ih =>
    rw [List.append_assoc, List.append_assoc]
    exact .cons hchar ih

/-! ### Values -/

/-- A value between the commas of an array. -/
structure Item where
  before : List Char
  text : List Char
  after : List Char
  value : JsonValue

namespace Item

def whole (x : Item) : List Char := x.before ++ x.text ++ x.after

def Spaced (x : Item) : Prop := Ws x.before ∧ Ws x.after

end Item

/-- A member between the commas of an object. -/
structure Member where
  before : List Char
  keyText : List Char
  key : List Char
  beforeColon : List Char
  item : Item

namespace Member

def whole (m : Member) : List Char :=
  m.before ++ '"' :: (m.keyText ++ '"' :: (m.beforeColon ++ ':' :: m.item.whole))

def WellFormed (m : Member) : Prop :=
  Ws m.before ∧ Chars m.keyText m.key ∧ Ws m.beforeColon ∧ m.item.Spaced

def entry (m : Member) : String × JsonValue := (String.ofList m.key, m.item.value)

end Member

/-- Entries with a `value-separator` between them. -/
def separated (entries : List (List Char)) : List Char := [','].intercalate entries

/-- `value`. -/
inductive Value (reals : RealText) : List Char → JsonValue → Prop
  | null : Value reals ['n', 'u', 'l', 'l'] .null
  | true : Value reals ['t', 'r', 'u', 'e'] (.bool true)
  | false : Value reals ['f', 'a', 'l', 's', 'e'] (.bool false)
  | number (n : Number) : n.WellFormed → n.Finite reals → Value reals n.text (n.value reals)
  | string {text bytes : List Char} : Chars text bytes →
      Value reals ('"' :: (text ++ ['"'])) (.string (String.ofList bytes))
  | emptyArray {space : List Char} : Ws space → Value reals ('[' :: (space ++ [']'])) (.array [])
  | array {items : List Item} : items ≠ [] → (∀ x ∈ items, x.Spaced) →
      (∀ x ∈ items, Value reals x.text x.value) →
      Value reals ('[' :: (separated (items.map Item.whole) ++ [']']))
        (.array (items.map Item.value))
  | emptyObject {space : List Char} : Ws space →
      Value reals ('{' :: (space ++ ['}'])) (.object [])
  | object {members : List Member} : members ≠ [] → (∀ m ∈ members, m.WellFormed) →
      (∀ m ∈ members, Value reals m.item.text m.item.value) →
      Value reals ('{' :: (separated (members.map Member.whole) ++ ['}']))
        (.object (members.map Member.entry))

/-- `JSON-text`. -/
def Text (reals : RealText) (text : List Char) (value : JsonValue) : Prop :=
  ∃ before body after, text = before ++ body ++ after ∧ Ws before ∧ Ws after ∧
    Value reals body value

end JsonGrammar

namespace JsonValue

/-! ### What the limits bound -/

/-- No object has a key twice. -/
inductive Distinct : JsonValue → Prop
  | leaf {value : JsonValue} : value.isArray = false → value.isObject = false → Distinct value
  | array {items : List JsonValue} : (∀ x ∈ items, Distinct x) → Distinct (array items)
  | object {members : List (String × JsonValue)} : (members.map Prod.fst).Nodup →
      (∀ m ∈ members, Distinct m.2) → Distinct (object members)

mutual

/-- The nodes the parser counts for a value. -/
def nodes : JsonValue → Nat
  | array items => 1 + nodesOf items
  | object members => 1 + nodesUnder members
  | _ => 1

def nodesOf : List JsonValue → Nat
  | [] => 0
  | item :: rest => item.nodes + nodesOf rest

def nodesUnder : List (String × JsonValue) → Nat
  | [] => 0
  | (_, value) :: rest => value.nodes + nodesUnder rest

end

/-- The value has at most so many levels, and its containers and strings are within the
limits. -/
def Fits (limits : JsonLimits) : (levels : Nat) → JsonValue → Prop
  | 0, _ => False
  | levels + 1, array items =>
    items.length ≤ limits.maxContainerEntries ∧ ∀ item ∈ items, Fits limits levels item
  | levels + 1, object members =>
    members.length ≤ limits.maxContainerEntries ∧
      ∀ m ∈ members, m.1.length ≤ limits.maxStringBytes ∧ Fits limits levels m.2
  | _ + 1, string text => text.length ≤ limits.maxStringBytes
  | _ + 1, _ => True

/-- The value is within the limits of the parser. -/
def Within (limits : JsonLimits) (value : JsonValue) : Prop :=
  value.Fits limits (limits.maxDepth + 1) ∧ value.nodes ≤ limits.maxNodes

theorem nodes_pos (value : JsonValue) : 0 < value.nodes := by
  cases value <;> simp only [nodes] <;> omega

theorem nodesOf_eq_sum (items : List JsonValue) : nodesOf items = (items.map nodes).sum := by
  induction items with
  | nil => rfl
  | cons item rest ih => rw [nodesOf, ih, List.map_cons, List.sum_cons]

theorem nodesUnder_eq_sum (members : List (String × JsonValue)) :
    nodesUnder members = (members.map (fun m => m.2.nodes)).sum := by
  induction members with
  | nil => rfl
  | cons m rest ih => rw [nodesUnder, ih, List.map_cons, List.sum_cons]

end JsonValue

end DrainFabric
