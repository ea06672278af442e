import Pine.Core.Binary64
import Pine.Core.Bytes
import Pine.Core.ThreeValued

/-!
# Values of SQL columns

A column takes a value of any storage class and converts it by its affinity. Values of
different classes are unequal, and a comparison with NULL is unknown.
-/

namespace Pine

/-- A number of a column; a real that is not a number is stored as NULL. -/
inductive SqlNumber where
  | integer (n : Int)
  | real (x : {x : Binary64 // x ≠ .nan})
  deriving DecidableEq

/-- A value of a column. -/
inductive SqlValue where
  | null
  | number (x : SqlNumber)
  | text (s : Text)
  | blob (b : Bytes)
  deriving DecidableEq

/-- How SQLite reads a number that a text spells, and spells a number. -/
structure SqlNumerals where
  read : Text → Option SqlNumber
  write : SqlNumber → Text

/-- A finite real in units of the smallest positive magnitude. -/
def Binary64.signedUnits : Binary64 → Option Int
  | .fin negative units => some (if negative then -(units.val : Int) else units.val)
  | _ => none

namespace SqlNumber

/-- Numbers are compared by value; both zeros are equal. -/
def same : SqlNumber → SqlNumber → Bool
  | integer m, integer n => m == n
  | real x, real y => x.val == y.val || (x.val.signedUnits == some 0 && y.val.signedUnits == some 0)
  | integer n, real x | real x, integer n => x.val.signedUnits == some (n * 2 ^ unitExponent)

/-- A real that is an integer is stored as one, unless it is too large. -/
def toInteger : SqlNumber → SqlNumber
  | integer n => integer n
  | real x => match x.val.signedUnits with
    | some units =>
      if units % 2 ^ unitExponent = 0 ∧ (units / 2 ^ unitExponent).natAbs < 2 ^ 63 - 1 then
        integer (units / 2 ^ unitExponent)
      else real x
    | none => real x

theorem same_self (x : SqlNumber) : x.same x = true := by
  cases x <;> simp [same]

/-- After the conversion only the integer zero equals zero. -/
theorem toInteger_same_zero (x : SqlNumber) : x.toInteger.same (integer 0) = true ↔
    x.toInteger = integer 0 := by
  cases x with
  | integer n => simp [toInteger, same]
  | real x =>
    cases hunits : x.val.signedUnits with
    | none => simp [toInteger, same, hunits]
    | some units =>
      by_cases hint : units % 2 ^ unitExponent = 0 ∧ (units / 2 ^ unitExponent).natAbs < 2 ^ 63 - 1
      · have hconverted : toInteger (real x) = integer (units / 2 ^ unitExponent) := by
          simp only [toInteger, hunits, if_pos hint]
        rw [hconverted]
        simp [same]
      · have hkept : toInteger (real x) = real x := by simp only [toInteger, hunits, if_neg hint]
        rw [hkept]
        simp only [same, hunits, zero_mul, beq_iff_eq, Option.some.injEq, reduceCtorEq, iff_false]
        rintro rfl
        exact hint (by simp)

end SqlNumber

namespace SqlValue

/-- `value IS NULL` -/
def isNull : SqlValue → Bool
  | null => true
  | _ => false

/-- `a = b` -/
def equal : SqlValue → SqlValue → Truth
  | null, _ | _, null => none
  | number x, number y => some (x.same y)
  | text s, text t => some (s == t)
  | blob b, blob c => some (b == c)
  | _, _ => some false

/-- What a TEXT column stores. -/
def toText (numerals : SqlNumerals) : SqlValue → SqlValue
  | number x => text (numerals.write x)
  | value => value

/-- What an INTEGER column stores. -/
def toInteger (numerals : SqlNumerals) : SqlValue → SqlValue
  | number x => number x.toInteger
  | text s => match numerals.read s with
    | some x => number x.toInteger
    | none => text s
  | value => value

/-- `0` -/
def zero : SqlValue := number (.integer 0)

theorem isNull_iff {value : SqlValue} : value.isNull = true ↔ value = null := by
  cases value <;> simp [isNull]

theorem isNull_eq_false {value : SqlValue} : value.isNull = false ↔ value ≠ null := by
  cases value <;> simp [isNull]

/-- A comparison with a value other than NULL is unknown exactly for NULL. -/
theorem equal_eq_none {a b : SqlValue} (hb : b ≠ null) : a.equal b = none ↔ a = null := by
  cases a <;> cases b <;> simp_all [equal]

theorem equal_self {value : SqlValue} (h : value ≠ null) : value.equal value = some true := by
  cases value <;> simp_all [equal, SqlNumber.same_self]

theorem equal_text {value : SqlValue} {s : Text} :
    value.equal (text s) = some true ↔ value = text s := by
  cases value <;> simp [equal]

/-- In an INTEGER column only the integer zero equals zero. -/
theorem toInteger_equal_zero (numerals : SqlNumerals) (value : SqlValue) :
    (value.toInteger numerals).equal zero = some true ↔ value.toInteger numerals = zero := by
  cases value with
  | null => simp [toInteger, equal, zero]
  | number x => simp [toInteger, equal, zero, SqlNumber.toInteger_same_zero]
  | text s =>
    cases hread : numerals.read s with
    | none => simp [toInteger, hread, equal, zero]
    | some x => simp [toInteger, hread, equal, zero, SqlNumber.toInteger_same_zero]
  | blob b => simp [toInteger, equal, zero]

end SqlValue

end Pine
