import Pine.Core.Binary64

/-!
# Equality of JSON values

`==` of the source language on loaded documents: dictionaries are equal whatever the
order of their keys, and numbers are equal when their values are.
-/

namespace Pine.Json

/-- A number in units of the smallest magnitude; infinities and NaNs have none. -/
def Value.units? : Value Binary64 → Option Int
  | .bool b => some (b.toNat * 2 ^ unitExponent)
  | .int z => some (z * 2 ^ unitExponent)
  | .float (.fin negative units) => some (if negative then -(units.val : Int) else units.val)
  | _ => none

/-- Equality of values that are no text and no container. -/
def Value.equalsAtom : Value Binary64 → Value Binary64 → Bool
  | .null, .null => true
  | .float (.inf negative), .float (.inf negative') => negative == negative'
  | v, w => match v.units?, w.units? with
    | some m, some n => m == n
    | _, _ => false

mutual

/-- `v == w` -/
def Value.equals : Value Binary64 → Value Binary64 → Bool
  | .str s, w => match w with
    | .str t => s == t
    | _ => false
  | .arr xs, w => match w with
    | .arr ys => equalsItems xs ys
    | _ => false
  | .obj fs, w => match w with
    | .obj gs => fs.length == gs.length && equalsFields fs gs
    | _ => false
  | v, w => v.equalsAtom w

def equalsItems : List (Value Binary64) → List (Value Binary64) → Bool
  | [], ys => ys.isEmpty
  | x :: xs, ys => match ys with
    | [] => false
    | y :: ys => x.equals y && equalsItems xs ys

def equalsFields : List (List Char × Value Binary64) → List (List Char × Value Binary64) → Bool
  | [], _ => true
  | (key, x) :: fs, gs => (match gs.find? (·.1 == key) with
    | some (_, y) => x.equals y
    | none => false) && equalsFields fs gs

end

end Pine.Json
