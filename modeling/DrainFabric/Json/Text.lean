import DrainFabric.Json
import DrainFabric.Lib.Except
import DrainFabric.Lib.Loop

/-!
# JSON text

The writer and the parser of `json.cpp`. A text is a list of bytes, each one a `Char`.
The parser is a reader that hands on what is left of the text and the number of nodes
counted so far; `pos_` of the source is the part of the text that was read.

`parse_value` calls itself one level deeper, and fails below `max_depth`: it is defined
by recursion on the levels that are left. Its loops are `Lib.loop`s, with the length of
the text left as the bound on the rounds: every round takes a character, so the bound is
never felt (`loop_stringRound_rounds` and its likes in `Json.Acceptance`).

How the C library prints and scans doubles is a parameter (`RealText`).
-/

namespace DrainFabric

open Lib

/-- `JsonLimits`. -/
structure JsonLimits where
  maxDepth : Nat := 32
  maxStringBytes : Nat := 8192
  maxContainerEntries : Nat := 65536
  maxNodes : Nat := 262144
  maxTotalBytes : Nat := 8 * 1024 * 1024

/-- `snprintf` with `%.17g`, and `strtod` of a token it reads to its end. -/
structure RealText where
  print : UInt64 → List Char
  scan : List Char → UInt64

/-- `std::isfinite`. -/
def isFinite (bits : UInt64) : Bool := (bits >>> 52) &&& 0x7ff ≠ 0x7ff

namespace JsonValue

/-! ### The writer -/

/-- What `append_escaped` writes for one byte. -/
def escapeChar (c : Char) : List Char :=
  if c = '"' then ['\\', '"']
  else if c = '\\' then ['\\', '\\']
  else if c = '\x08' then ['\\', 'b']
  else if c = '\x0c' then ['\\', 'f']
  else if c = '\n' then ['\\', 'n']
  else if c = '\r' then ['\\', 'r']
  else if c = '\t' then ['\\', 't']
  else if c.toNat < 0x20 then
    ['\\', 'u', '0', '0', Nat.digitChar (c.toNat / 16), Nat.digitChar (c.toNat % 16)]
  else [c]

/-- `append_escaped`. -/
def appendEscaped (text : String) : List Char :=
  '"' :: (text.toList.flatMap escapeChar ++ ['"'])

/-- `append_number`. -/
def appendNumber (reals : RealText) (bits : UInt64) : List Char :=
  if isFinite bits = false ∨ reals.print bits = [] then ['0'] else reals.print bits

/-- A new line, indented for the depth; nothing when the text is compact. -/
def lineBreak (indent depth : Nat) : List Char :=
  if indent = 0 then [] else '\n' :: List.replicate (indent * depth) ' '

mutual

/-- `dump_into`. -/
def dumpInto (reals : RealText) (indent depth : Nat) : JsonValue → List Char
  | null => ['n', 'u', 'l', 'l']
  | bool true => ['t', 'r', 'u', 'e']
  | bool false => ['f', 'a', 'l', 's', 'e']
  | int value => (toString value).toList
  | uint value => (toString value).toList
  | real bits => appendNumber reals bits
  | string text => appendEscaped text
  | array [] => ['[', ']']
  | array (item :: items) =>
    '[' :: (dumpItems reals indent depth true (item :: items) ++ lineBreak indent depth ++ [']'])
  | object [] => ['{', '}']
  | object (member :: members) =>
    '{' :: (dumpMembers reals indent depth true (member :: members) ++
      lineBreak indent depth ++ ['}'])

/-- The items of an array; all but the first follow a comma. -/
def dumpItems (reals : RealText) (indent depth : Nat) (first : Bool) : List JsonValue → List Char
  | [] => []
  | item :: rest =>
    (if first then [] else [',']) ++ lineBreak indent (depth + 1) ++
      dumpInto reals indent (depth + 1) item ++ dumpItems reals indent depth false rest

/-- The members of an object; all but the first follow a comma. -/
def dumpMembers (reals : RealText) (indent depth : Nat) (first : Bool) :
    List (String × JsonValue) → List Char
  | [] => []
  | (key, value) :: rest =>
    (if first then [] else [',']) ++ lineBreak indent (depth + 1) ++ appendEscaped key ++
      (if indent = 0 then [':'] else [':', ' ']) ++
      dumpInto reals indent (depth + 1) value ++ dumpMembers reals indent depth false rest

end

/-- `dump`. -/
def dump (reals : RealText) (value : JsonValue) (indent : Nat := 0) : List Char :=
  value.dumpInto reals indent 0

end JsonValue

/-! ### Strings and numbers -/

namespace JsonText

/-- The whitespace of `skip_whitespace`. -/
def isSpace (c : Char) : Bool := c == ' ' || c == '\t' || c == '\n' || c == '\r'

/-- `skip_whitespace`. -/
def skipWhitespace (text : List Char) : List Char := text.dropWhile isSpace

/-- `consume`: what is left after the expected byte, when it is the next one. -/
def consume (expected : Char) : List Char → Option (List Char)
  | [] => none
  | c :: rest => if c = expected then some rest else none

/-- The value of a digit in `parse_hex4`. -/
def hexValue (c : Char) : Option Nat :=
  if '0' ≤ c ∧ c ≤ '9' then some (c.toNat - '0'.toNat)
  else if 'a' ≤ c ∧ c ≤ 'f' then some (c.toNat - 'a'.toNat + 10)
  else if 'A' ≤ c ∧ c ≤ 'F' then some (c.toNat - 'A'.toNat + 10)
  else none

/-- One round of `parse_hex4`. -/
def hexStep (value : Nat) (c : Char) : Result Nat := do
  let digit ← orFail (hexValue c) .protocolError "invalid hex digit in unicode escape"
  return value * 16 + digit

/-- `parse_hex4`. -/
def parseHex4 (text : List Char) : Result (Nat × List Char) := do
  rejectIf (text.length < 4) .protocolError "truncated unicode escape"
  let value ← (text.take 4).foldlM hexStep 0
  return (value, text.drop 4)

/-- `append_utf8`. -/
def appendUtf8 (code : Nat) : List Char :=
  if code < 0x80 then [Char.ofNat code]
  else if code < 0x800 then
    [Char.ofNat (0xc0 ||| code >>> 6), Char.ofNat (0x80 ||| code &&& 0x3f)]
  else if code < 0x10000 then
    [Char.ofNat (0xe0 ||| code >>> 12), Char.ofNat (0x80 ||| code >>> 6 &&& 0x3f),
      Char.ofNat (0x80 ||| code &&& 0x3f)]
  else
    [Char.ofNat (0xf0 ||| code >>> 18), Char.ofNat (0x80 ||| code >>> 12 &&& 0x3f),
      Char.ofNat (0x80 ||| code >>> 6 &&& 0x3f), Char.ofNat (0x80 ||| code &&& 0x3f)]

/-- The code point of a `\u` escape: a high surrogate takes the low one with it. -/
def parseCodePoint (text : List Char) : Result (Nat × List Char) := do
  let (code, rest) ← parseHex4 text
  if 0xd800 ≤ code ∧ code ≤ 0xdbff then
    rejectIf (rest.take 2 ≠ ['\\', 'u']) .protocolError "lone high surrogate in json string"
    let (low, rest) ← parseHex4 (rest.drop 2)
    rejectIf (low < 0xdc00 ∨ low > 0xdfff) .protocolError "invalid low surrogate in json string"
    return (0x10000 + (code - 0xd800) <<< 10 + (low - 0xdc00), rest)
  else
    rejectIf (0xdc00 ≤ code ∧ code ≤ 0xdfff) .protocolError
      "unpaired low surrogate in json string"
    return (code, rest)

/-- The bytes that follow a backslash in a string, and what they stand for. -/
def parseEscape : List Char → Result (List Char × List Char)
  | [] => fail .protocolError "truncated json escape"
  | '"' :: rest => .ok (['"'], rest)
  | '\\' :: rest => .ok (['\\'], rest)
  | '/' :: rest => .ok (['/'], rest)
  | 'b' :: rest => .ok (['\x08'], rest)
  | 'f' :: rest => .ok (['\x0c'], rest)
  | 'n' :: rest => .ok (['\n'], rest)
  | 'r' :: rest => .ok (['\r'], rest)
  | 't' :: rest => .ok (['\t'], rest)
  | 'u' :: rest => do
    let (code, rest) ← parseCodePoint rest
    return (appendUtf8 code, rest)
  | _ => fail .protocolError "invalid json escape"

/-- The error of a loop that ran out of rounds; no loop of the parser does. -/
def outOfRounds : Error := ⟨.internal, "parser loop"⟩

/-- One round of `parse_string`, with the bytes read so far. -/
def stringRound (limits : JsonLimits) :
    List Char × List Char → Result (List Char × List Char ⊕ List Char × List Char)
  | (_, []) => fail .protocolError "unterminated json string"
  | (out, c :: rest) =>
    if c = '"' then .ok (.inr (out, rest))
    else if c.toNat < 0x20 then
      fail .protocolError "unescaped control character in json string"
    else if c ≠ '\\' then do
      rejectIf (out.length ≥ limits.maxStringBytes) .boundsExceeded
        "json string length budget exceeded"
      return .inl (out ++ [c], rest)
    else do
      let (bytes, rest) ← parseEscape rest
      rejectIf ((out ++ bytes).length > limits.maxStringBytes) .boundsExceeded
        "json string length budget exceeded"
      return .inl (out ++ bytes, rest)

/-- `parse_string`, after the opening quote. -/
def parseString (limits : JsonLimits) (text : List Char) : Result (String × List Char) := do
  let (out, rest) ← loop (stringRound limits) outOfRounds (text.length + 1) ([], text)
  return (String.ofList out, rest)

/-- The digits of the integer part of a number. -/
def parseInteger : List Char → Result (List Char × List Char)
  | [] => fail .protocolError "truncated json number"
  | c :: rest =>
    if c = '0' then
      if rest.head?.any Char.isDigit then fail .protocolError "leading zero in json number"
      else .ok (['0'], rest)
    else if c.isDigit then
      .ok ((c :: rest).takeWhile Char.isDigit, (c :: rest).dropWhile Char.isDigit)
    else fail .protocolError "invalid json number"

/-- Digits that may not be missing. -/
def parseDigits (message : String) (text : List Char) : Result (List Char × List Char) := do
  rejectIf (¬ text.head?.any Char.isDigit) .protocolError message
  return (text.takeWhile Char.isDigit, text.dropWhile Char.isDigit)

/-- The fraction of a number, with its point; empty when there is none. -/
def parseFraction (text : List Char) : Result (List Char × List Char) :=
  match consume '.' text with
  | none => .ok ([], text)
  | some rest => do
    let (digits, rest) ← parseDigits "missing fraction digits in json number" rest
    return ('.' :: digits, rest)

/-- The exponent of a number, with its mark and its sign; empty when there is none. -/
def parseExponent : List Char → Result (List Char × List Char)
  | [] => .ok ([], [])
  | c :: rest =>
    if c = 'e' ∨ c = 'E' then do
      let sign := rest.takeWhile (fun c => c == '+' || c == '-') |>.take 1
      let (digits, rest) ← parseDigits "missing exponent digits in json number"
        (rest.drop sign.length)
      return (c :: (sign ++ digits), rest)
    else .ok ([], c :: rest)

/-- `std::from_chars` of an optional sign and digits, into the type the code chooses by
the sign. -/
def fromChars (negative : Bool) (digits : List Char) : Option JsonValue :=
  let value := Nat.ofDigitChars 10 digits 0
  if negative then
    if i64Min ≤ -(value : Int) then some (.int (-(value : Int))) else none
  else if value ≤ u64Max then some (.uint value) else none

/-- `parse_number`. -/
def parseNumber (reals : RealText) (text : List Char) : Result (JsonValue × List Char) := do
  let negative := (consume '-' text).isSome
  let (digits, rest) ← parseInteger ((consume '-' text).getD text)
  let (fraction, rest) ← parseFraction rest
  let (exponent, rest) ← parseExponent rest
  let token := (if negative then ['-'] else []) ++ digits ++ fraction ++ exponent
  let integral := fraction.isEmpty && exponent.isEmpty && token.length ≤ 20
  match (if integral then fromChars negative digits else none) with
  | some value => return (value, rest)
  | none =>
    rejectIf (isFinite (reals.scan token) = false) .protocolError "json number out of range"
    return (.real (reals.scan token), rest)

/-! ### Values -/

/-- The state of the parser: what is left of the text, and the nodes counted. -/
structure Reader where
  rest : List Char
  nodes : Nat

/-- `count_node`. -/
def countNode (limits : JsonLimits) (r : Reader) : Result Reader := do
  rejectIf (r.nodes + 1 > limits.maxNodes) .boundsExceeded "json node budget exceeded"
  return { r with nodes := r.nodes + 1 }

/-- `parse_literal`. -/
def parseLiteral (literal : List Char) (value : JsonValue) (r : Reader) :
    Result (JsonValue × Reader) := do
  rejectIf (r.rest.take literal.length ≠ literal) .protocolError "invalid json literal"
  return (value, { r with rest := r.rest.drop literal.length })

/-- What follows an entry: another one, or the end of the container. -/
def parseSeparator {α : Type} (close : Char) (message : String) (entries : α) (r : Reader) :
    Result (α × Reader ⊕ α × Reader) :=
  let rest := skipWhitespace r.rest
  match consume ',' rest, consume close rest with
  | some rest, _ => .ok (.inl (entries, { r with rest }))
  | none, some rest => .ok (.inr (entries, { r with rest }))
  | none, none => fail .protocolError message

section

variable (limits : JsonLimits) (item : Reader → Result (JsonValue × Reader))

/-- One round of `parse_array`, with the items read so far. -/
def arrayRound (s : List JsonValue × Reader) :
    Result (List JsonValue × Reader ⊕ List JsonValue × Reader) := do
  let (items, r) := s
  rejectIf (items.length ≥ limits.maxContainerEntries) .boundsExceeded
    "json array entry budget exceeded"
  let (value, r) ← item { r with rest := skipWhitespace r.rest }
  parseSeparator ']' "expected ',' or ']' in json array" (items ++ [value]) r

/-- `parse_array`, after the bracket. -/
def parseArray (r : Reader) : Result (JsonValue × Reader) :=
  let rest := skipWhitespace r.rest
  match consume ']' rest with
  | some rest => .ok (.array [], { r with rest })
  | none => do
    let (items, r) ← loop (arrayRound limits item) outOfRounds (r.rest.length + 1)
      ([], { r with rest })
    return (.array items, r)

/-- One round of `parse_object`, with the members read so far. -/
def objectRound (s : List (String × JsonValue) × Reader) :
    Result (List (String × JsonValue) × Reader ⊕ List (String × JsonValue) × Reader) := do
  let (members, r) := s
  let rest ← orFail (consume '"' (skipWhitespace r.rest)) .protocolError "expected object key"
  let (key, rest) ← parseString limits rest
  rejectIf (members.length ≥ limits.maxContainerEntries) .boundsExceeded
    "json object entry budget exceeded"
  rejectIf (key ∈ members.map Prod.fst) .protocolError "duplicate json object key"
  let rest ← orFail (consume ':' (skipWhitespace rest)) .protocolError
    "expected ':' in json object"
  let (value, r) ← item { r with rest := skipWhitespace rest }
  parseSeparator '}' "expected ',' or '\x7d' in json object" (members ++ [(key, value)]) r

/-- `parse_object`, after the brace. -/
def parseObject (r : Reader) : Result (JsonValue × Reader) :=
  let rest := skipWhitespace r.rest
  match consume '}' rest with
  | some rest => .ok (.object [], { r with rest })
  | none => do
    let (members, r) ← loop (objectRound limits item) outOfRounds (r.rest.length + 1)
      ([], { r with rest })
    return (.object members, r)

end

/-- `parse_value`, with the levels that are left: `max_depth + 1 - depth`. -/
def parseValue (limits : JsonLimits) (reals : RealText) :
    (levels : Nat) → Reader → Result (JsonValue × Reader)
  | 0, _ => fail .boundsExceeded "json nesting depth exceeded"
  | levels + 1, r => do
    let r ← countNode limits r
    match r.rest with
    | [] => fail .protocolError "unexpected end of json input"
    | '{' :: rest => parseObject limits (parseValue limits reals levels) { r with rest }
    | '[' :: rest => parseArray limits (parseValue limits reals levels) { r with rest }
    | '"' :: rest => do
      let (text, rest) ← parseString limits rest
      return (.string text, { r with rest })
    | 't' :: _ => parseLiteral ['t', 'r', 'u', 'e'] (.bool true) r
    | 'f' :: _ => parseLiteral ['f', 'a', 'l', 's', 'e'] (.bool false) r
    | 'n' :: _ => parseLiteral ['n', 'u', 'l', 'l'] .null r
    | _ => do
      let (value, rest) ← parseNumber reals r.rest
      return (value, { r with rest })

end JsonText

open JsonText in
/-- `json_parse`. -/
def jsonParse (reals : RealText) (text : List Char) (limits : JsonLimits := {}) :
    Result JsonValue := do
  rejectIf (text.length > limits.maxTotalBytes) .boundsExceeded
    "json input exceeds max_total_bytes"
  let (value, r) ← parseValue limits reals (limits.maxDepth + 1)
    { rest := skipWhitespace text, nodes := 0 }
  rejectIf (skipWhitespace r.rest ≠ []) .protocolError "trailing content after json value"
  return value

end DrainFabric
