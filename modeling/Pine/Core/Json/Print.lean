import Pine.Core.Json.Value

/-!
# JSON printing

One printer serves every layout: a `Style` is the blank text after an opening
bracket, after a comma, before a closing bracket and after a colon, each at its
nesting depth. Strings keep every character of the basic and supplementary planes
and escape only quotes, backslashes and control characters.
-/

namespace Pine.Json

/-! ## Strings and integers -/

/-- A lowercase hexadecimal digit. -/
def hexDigit (n : Nat) : Char := (Nat.toDigits 16 n).headD '0'

/-- `"\u{0:04x}"` of a control character. -/
def escapeControl (c : Char) : List Char :=
  ['\\', 'u', '0', '0', hexDigit (c.toNat / 16), hexDigit (c.toNat % 16)]

/-- The escape of one character; `ensure_ascii` is off. -/
def escapeChar (c : Char) : List Char :=
  if c = '"' then ['\\', '"']
  else if c = '\\' then ['\\', '\\']
  else if c = '\n' then ['\\', 'n']
  else if c = '\r' then ['\\', 'r']
  else if c = '\t' then ['\\', 't']
  else if c = '\x0c' then ['\\', 'f']
  else if c = '\x08' then ['\\', 'b']
  else if c.toNat < 0x20 then escapeControl c
  else [c]

def escape (s : List Char) : List Char := s.flatMap escapeChar

/-- A quoted string. -/
def printString (s : List Char) : List Char := '"' :: escape s ++ ['"']

/-- `int.__repr__`. -/
def printInt (z : Int) : List Char :=
  if z < 0 then '-' :: Nat.toDigits 10 z.natAbs else Nat.toDigits 10 z.natAbs

/-! ## Layouts -/

/-- The blank text of a layout, by nesting depth where it depends on it. -/
structure Style where
  opening : Nat → List Char
  between : Nat → List Char
  closing : Nat → List Char
  colon : List Char

/-- The four blank characters of JSON. -/
def isBlank (c : Char) : Bool := c == ' ' || c == '\t' || c == '\n' || c == '\r'

/-- Blank characters only. -/
def Blank (s : List Char) : Prop := ∀ c ∈ s, isBlank c = true

/-- A layout adds nothing but blanks. -/
structure Style.Valid (st : Style) : Prop where
  opening : ∀ d, Blank (st.opening d)
  between : ∀ d, Blank (st.between d)
  closing : ∀ d, Blank (st.closing d)
  colon : Blank st.colon

/-- `separators=(",", ":")`. -/
def compactStyle : Style := ⟨fun _ => [], fun _ => [], fun _ => [], []⟩

/-- The default layout: `separators=(", ", ": ")`. -/
def defaultStyle : Style := ⟨fun _ => [], fun _ => [' '], fun _ => [], [' ']⟩

/-- `indent=n`: every item on its own line. -/
def indentStyle (n : Nat) : Style :=
  let newline := fun d => '\n' :: List.replicate (n * d) ' '
  ⟨newline, newline, newline, [' ']⟩

theorem blank_nil : Blank [] := by simp [Blank]

theorem compactStyle_valid : compactStyle.Valid :=
  ⟨fun _ => blank_nil, fun _ => blank_nil, fun _ => blank_nil, blank_nil⟩

theorem defaultStyle_valid : defaultStyle.Valid :=
  ⟨fun _ => blank_nil, fun _ => by simp [defaultStyle, Blank, isBlank], fun _ => blank_nil,
    by simp [defaultStyle, Blank, isBlank]⟩

theorem indentStyle_valid (n : Nat) : (indentStyle n).Valid := by
  have hline : ∀ d, Blank ('\n' :: List.replicate (n * d) ' ') := by
    intro d c hc
    rcases List.mem_cons.mp hc with rfl | hc
    · rfl
    · rw [List.eq_of_mem_replicate hc]
      rfl
  exact ⟨hline, hline, hline, by simp [indentStyle, Blank, isBlank]⟩

/-! ## Values -/

variable {F : Type} [FloatText F]

mutual

/-- The text of a value at nesting depth `d`. -/
def print (st : Style) (d : Nat) : Value F → List Char
  | .null => ['n', 'u', 'l', 'l']
  | .bool true => ['t', 'r', 'u', 'e']
  | .bool false => ['f', 'a', 'l', 's', 'e']
  | .int z => printInt z
  | .float x => FloatText.text x
  | .str s => printString s
  | .arr [] => ['[', ']']
  | .arr (x :: xs) =>
    '[' :: (st.opening (d + 1) ++ (print st (d + 1) x ++ (printItems st (d + 1) xs ++
      (st.closing d ++ [']']))))
  | .obj [] => ['{', '}']
  | .obj ((k, x) :: fs) =>
    '{' :: (st.opening (d + 1) ++ (printString k ++ ':' :: (st.colon ++ (print st (d + 1) x ++
      (printFields st (d + 1) fs ++ (st.closing d ++ ['}']))))))

/-- The further items of an array, each after its comma. -/
def printItems (st : Style) (d : Nat) : List (Value F) → List Char
  | [] => []
  | x :: xs => ',' :: (st.between d ++ (print st d x ++ printItems st d xs))

/-- The further fields of an object, each after its comma. -/
def printFields (st : Style) (d : Nat) : List (List Char × Value F) → List Char
  | [] => []
  | (k, x) :: fs =>
    ',' :: (st.between d ++ (printString k ++ ':' :: (st.colon ++ (print st d x ++
      printFields st d fs))))

end

end Pine.Json
