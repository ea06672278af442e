import Mathlib.Tactic.Common

/-!
# Three-valued logic

Conditions over nullable columns. A comparison with a missing value is unknown,
connectives are Kleene's, and a guard acts only on a condition that is true.
-/

namespace Pine

/-- A condition: true, false, or unknown. -/
abbrev Truth := Option Bool

namespace Truth

/-- A condition that is never unknown. -/
def known (b : Bool) : Truth := some b

def not : Truth → Truth
  | some b => some !b
  | none => none

def and : Truth → Truth → Truth
  | some false, _ => some false
  | _, some false => some false
  | some true, some true => some true
  | _, _ => none

def or (a b : Truth) : Truth := (a.not.and b.not).not

/-- The conjunction of a list of conditions. -/
def all (conditions : List Truth) : Truth := conditions.foldr and (some true)

/-- Equality of nullable values. -/
def equal {α : Type} [DecidableEq α] : Option α → Option α → Truth
  | some a, some b => some (decide (a = b))
  | _, _ => none

/-- A guard acts on a condition that is true. -/
def holds (t : Truth) : Bool := t == some true

@[simp] theorem holds_known (b : Bool) : (known b).holds = b := by cases b <;> rfl

@[simp] theorem holds_none : holds none = false := rfl

@[simp] theorem holds_and (a b : Truth) : (a.and b).holds = (a.holds && b.holds) := by
  rcases a with _ | _ | _ <;> rcases b with _ | _ | _ <;> rfl

@[simp] theorem holds_or (a b : Truth) : (a.or b).holds = (a.holds || b.holds) := by
  rcases a with _ | _ | _ <;> rcases b with _ | _ | _ <;> rfl

theorem holds_all (conditions : List Truth) :
    (all conditions).holds = conditions.all holds := by
  induction conditions with
  | nil => rfl
  | cons c rest ih => simp only [all, List.foldr_cons, holds_and, List.all_cons] at ih ⊢; rw [ih]

theorem holds_equal {α : Type} [DecidableEq α] (a b : Option α) :
    (equal a b).holds = true ↔ a = b ∧ a ≠ none := by
  cases a <;> cases b <;> simp [equal, holds]

/-- A negated guard does not act exactly when its condition is not false. -/
theorem holds_not (t : Truth) : t.not.holds = false ↔ t ≠ some false := by
  rcases t with _ | _ | _ <;> simp [not, holds]

@[simp] theorem known_eq_false (b : Bool) : known b = some false ↔ b = false := by
  simp [known]

theorem or_eq_false (a b : Truth) : a.or b = some false ↔ a = some false ∧ b = some false := by
  rcases a with _ | _ | _ <;> rcases b with _ | _ | _ <;> decide

theorem and_eq_false (a b : Truth) : a.and b = some false ↔ a = some false ∨ b = some false := by
  rcases a with _ | _ | _ <;> rcases b with _ | _ | _ <;> decide

/-- A conjunction is false exactly when one of its conditions is. -/
theorem all_eq_false (conditions : List Truth) :
    all conditions = some false ↔ some false ∈ conditions := by
  induction conditions with
  | nil => simp [all]
  | cons c rest ih =>
    have hstep : all (c :: rest) = c.and (all rest) := rfl
    rw [hstep, and_eq_false, ih, List.mem_cons, eq_comm (a := c)]

end Truth

end Pine
