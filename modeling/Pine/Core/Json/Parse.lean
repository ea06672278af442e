import Pine.Core.Json.Print

/-!
# JSON parsing

The parser of `json.loads` on decoded text: strict strings, the three non-finite
constants, and the last of several equal keys. A lone surrogate escape is refused
here, where the scanner would build a string that no encoding or hash accepts.
-/

namespace Pine.Json

/-- Drop leading blanks. -/
def skipBlank (s : List Char) : List Char := s.dropWhile isBlank

/-- The value of a hexadecimal digit. -/
def hexValue (c : Char) : Option Nat :=
  if '0' ≤ c ∧ c ≤ '9' then some (c.toNat - '0'.toNat)
  else if 'a' ≤ c ∧ c ≤ 'f' then some (c.toNat - 'a'.toNat + 10)
  else if 'A' ≤ c ∧ c ≤ 'F' then some (c.toNat - 'A'.toNat + 10)
  else none

/-- Four hexadecimal digits. -/
def hexFour (a b c d : Char) : Option Nat := do
  return 0x1000 * (← hexValue a) + 0x100 * (← hexValue b) + 0x10 * (← hexValue c) + (← hexValue d)

/-- The character of a surrogate pair. -/
def joinSurrogates (high low : Nat) : Char :=
  Char.ofNat (0x10000 + (high - 0xD800) * 0x400 + (low - 0xDC00))

/-- A string after its opening quote, up to and over its closing quote. -/
def parseString : List Char → Option (List Char × List Char)
  | '"' :: r => some ([], r)
  | '\\' :: 'u' :: a :: b :: c :: d :: r =>
    match hexFour a b c d with
    | none => none
    | some n =>
      if 0xD800 ≤ n ∧ n < 0xDC00 then
        match r with
        | '\\' :: 'u' :: a' :: b' :: c' :: d' :: r' =>
          match hexFour a' b' c' d' with
          | some m => if 0xDC00 ≤ m ∧ m < 0xE000 then
              (parseString r').map fun (s, r) => (joinSurrogates n m :: s, r)
            else none
          | none => none
        | _ => none
      else if 0xDC00 ≤ n ∧ n < 0xE000 then none
      else (parseString r).map fun (s, r) => (Char.ofNat n :: s, r)
  | '\\' :: e :: r =>
    match (match e with
      | '"' => some '"' | '\\' => some '\\' | '/' => some '/' | 'b' => some '\x08'
      | 'f' => some '\x0c' | 'n' => some '\n' | 'r' => some '\r' | 't' => some '\t'
      | _ => none) with
    | some c => (parseString r).map fun (s, r) => (c :: s, r)
    | none => none
  | c :: r => if c = '\\' ∨ c.toNat < 0x20 then none
      else (parseString r).map fun (s, r) => (c :: s, r)
  | [] => none

/-- The rest of a text that begins with the expected character. -/
def expect (c : Char) : List Char → Option (List Char)
  | [] => none
  | d :: t => if d = c then some t else none

@[simp] theorem expect_self (c : Char) (t : List Char) : expect c (c :: t) = some t := by
  simp [expect]

theorem expect_ne {c d : Char} (t : List Char) (h : d ≠ c) : expect c (d :: t) = none := by
  simp [expect, h]

/-- The value of an integer literal. -/
def intOfText : List Char → Int
  | [] => 0
  | c :: ds => if c = '-' then -(Nat.ofDigitChars 10 ds 0 : Int)
    else (Nat.ofDigitChars 10 (c :: ds) 0 : Int)

/-- `dict[key] = value`: a repeated key keeps its place and takes the new value. -/
def setField {V : Type} (k : List Char) (v : V) : List (List Char × V) → List (List Char × V)
  | [] => [(k, v)]
  | (k', v') :: fs => if k' = k then (k, v) :: fs else (k', v') :: setField k v fs

/-- The dictionary built from fields in reading order. -/
def buildFields {V : Type} (fields : List (List Char × V)) : List (List Char × V) :=
  fields.foldl (fun acc f => setField f.1 f.2 acc) []

variable {F : Type} [FloatText F]

/-- A number, split into integers and floats as `parse_int` and `parse_float` are. -/
def parseNumber (s : List Char) : Option (Value F × List Char) :=
  match scanNumber s with
  | some (whole, [], r) => some (.int (intOfText whole), r)
  | some (whole, c :: mark, r) => some (.float (FloatText.ofText (whole ++ c :: mark)), r)
  | none => none

mutual

/-- One value at the head of a text; the fuel bounds the nesting and the item count. -/
def parseValue : Nat → List Char → Option (Value F × List Char)
  | 0, _ => none
  | n + 1, s =>
    match s with
    | '"' :: t => (parseString t).map fun (s, r) => (.str s, r)
    | '{' :: t =>
      match expect '}' (skipBlank t) with
      | some r => some (.obj [], r)
      | none => (parseFields n (skipBlank t)).map fun (fs, r) => (.obj (buildFields fs), r)
    | '[' :: t =>
      match expect ']' (skipBlank t) with
      | some r => some (.arr [], r)
      | none => (parseItems n (skipBlank t)).map fun (xs, r) => (.arr xs, r)
    | 'n' :: 'u' :: 'l' :: 'l' :: r => some (.null, r)
    | 't' :: 'r' :: 'u' :: 'e' :: r => some (.bool true, r)
    | 'f' :: 'a' :: 'l' :: 's' :: 'e' :: r => some (.bool false, r)
    | 'N' :: 'a' :: 'N' :: r => some (.float (FloatText.ofText ['N', 'a', 'N']), r)
    | 'I' :: 'n' :: 'f' :: 'i' :: 'n' :: 'i' :: 't' :: 'y' :: r =>
      some (.float (FloatText.ofText ['I', 'n', 'f', 'i', 'n', 'i', 't', 'y']), r)
    | '-' :: 'I' :: 'n' :: 'f' :: 'i' :: 'n' :: 'i' :: 't' :: 'y' :: r =>
      some (.float (FloatText.ofText ['-', 'I', 'n', 'f', 'i', 'n', 'i', 't', 'y']), r)
    | s => parseNumber s

/-- One or more items up to the closing bracket. -/
def parseItems : Nat → List Char → Option (List (Value F) × List Char)
  | 0, _ => none
  | n + 1, s =>
    match parseValue n s with
    | none => none
    | some (x, r) =>
      match expect ',' (skipBlank r) with
      | some r => (parseItems n (skipBlank r)).map fun (xs, r) => (x :: xs, r)
      | none => (expect ']' (skipBlank r)).map fun r => ([x], r)

/-- One or more fields up to the closing brace. -/
def parseFields : Nat → List Char → Option (List (List Char × Value F) × List Char)
  | 0, _ => none
  | n + 1, s =>
    match (expect '"' s).bind parseString with
    | none => none
    | some (k, r) =>
      match (expect ':' (skipBlank r)).bind fun r => parseValue n (skipBlank r) with
      | none => none
      | some (x, r) =>
        match expect ',' (skipBlank r) with
        | some r => (parseFields n (skipBlank r)).map fun (fs, r) => ((k, x) :: fs, r)
        | none => (expect '}' (skipBlank r)).map fun r => ([(k, x)], r)

end

/-- `json.loads` of decoded text. -/
def loads (s : List Char) : Option (Value F) :=
  match parseValue (s.length + 1) (skipBlank s) with
  | some (v, r) => if skipBlank r = [] then some v else none
  | none => none

end Pine.Json
