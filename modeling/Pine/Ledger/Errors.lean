import Mathlib.Data.List.Forall2
import Pine.Core.Text

/-!
# Errors

The exceptions of the ledger and those of the language and the database that its
code lets pass or catches. A catch clause names a class, so the classes that
matter to one are predicates here.
-/

namespace Pine

inductive Error where
  | integrityError (message : Text)
  | schemaNotFoundError (message : Text)
  | forecastValidationError (errors : List Text)
  | freshWindowError (message : Text)
  | idempotencyConflictError (message : Text)
  | snapshotCaptureError (message : Text)
  | runStateError (message : Text)
  | valueError (message : Text)
  | typeError (message : Text)
  | keyError (key : Text)
  | overflowError (message : Text)
  | osError (message : Text)
  | sqliteError (message : Text)
  | keyboardInterrupt
  | otherException (name message : Text)
  deriving DecidableEq

namespace Error

/-- `isinstance(exc, IntegrityError)` -/
def isIntegrityError : Error → Bool
  | integrityError _ | freshWindowError _ | idempotencyConflictError _ | snapshotCaptureError _
  | runStateError _ => true
  | _ => false

/-- `isinstance(exc, LedgerError)` -/
def isLedgerError : Error → Bool
  | integrityError _ | schemaNotFoundError _ | forecastValidationError _ | freshWindowError _
  | idempotencyConflictError _ | snapshotCaptureError _ | runStateError _ => true
  | _ => false

/-- `isinstance(exc, Exception)`: an interrupt is only a `BaseException`. -/
def isException : Error → Bool
  | keyboardInterrupt => false
  | _ => true

/-- `except (KeyError, TypeError, ValueError)` -/
def isMalformed : Error → Bool
  | keyError _ | typeError _ | valueError _ => true
  | _ => false

end Error

/-- `try: ... except ...`: an error that the clause names is replaced by the one it raises. -/
def rethrow {α : Type} (names : Error → Bool) (raised : Error) (r : Except Error α) :
    Except Error α :=
  match r with
  | .ok a => .ok a
  | .error e => .error (if names e then raised else e)

theorem rethrow_ok {α : Type} {names : Error → Bool} {raised : Error} {r : Except Error α} {a : α} :
    rethrow names raised r = .ok a ↔ r = .ok a := by
  cases r <;> simp [rethrow]

/-- `if ...: raise ...` -/
def refuse (condition : Prop) [Decidable condition] (e : Error) : Except Error Unit :=
  if condition then .error e else .ok ()

theorem refuse_ok {condition : Prop} [Decidable condition] {e : Error} {u : Unit} :
    refuse condition e = .ok u ↔ ¬ condition := by
  unfold refuse
  split <;> simp_all

/-- A value that must be there. -/
def required {α : Type} (value : Option α) (e : Error) : Except Error α :=
  match value with
  | some a => .ok a
  | none => .error e

theorem required_ok {α : Type} {value : Option α} {e : Error} {a : α} :
    required value e = .ok a ↔ value = some a := by
  cases value <;> simp [required]

/-- What a successful sequence of fallible steps did. -/
theorem bind_eq_ok {ε α β : Type} {x : Except ε α} {f : α → Except ε β} {b : β} :
    (x >>= f) = .ok b ↔ ∃ a, x = .ok a ∧ f a = .ok b := by
  cases x <;> simp [Bind.bind, Except.bind]

theorem map_eq_ok {ε α β : Type} {x : Except ε α} {f : α → β} {b : β} :
    x.map f = .ok b ↔ ∃ a, x = .ok a ∧ f a = b := by
  cases x <;> simp [Except.map]

/-- A list of successful steps. -/
theorem mapM_eq_ok {ε α β : Type} {f : α → Except ε β} {xs : List α} {ys : List β} :
    xs.mapM f = .ok ys ↔ List.Forall₂ (fun x y => f x = .ok y) xs ys := by
  induction xs generalizing ys with
  | nil =>
    rw [List.mapM_nil, List.forall₂_nil_left_iff]
    exact ⟨fun h => (Except.ok.inj h).symm, fun h => h ▸ rfl⟩
  | cons x xs ih =>
    rw [List.mapM_cons, List.forall₂_cons_left_iff]
    constructor
    · intro h
      obtain ⟨y, hy, hrest⟩ := bind_eq_ok.mp h
      obtain ⟨rest, hxs, heq⟩ := bind_eq_ok.mp hrest
      exact ⟨y, rest, hy, ih.mp hxs, (Except.ok.inj heq).symm⟩
    · rintro ⟨y, rest, hy, hxs, rfl⟩
      exact bind_eq_ok.mpr ⟨y, hy, bind_eq_ok.mpr ⟨rest, ih.mpr hxs, rfl⟩⟩

/-- Steps that all succeed, succeed one after the other. -/
theorem exists_mapM {ε α β : Type} {f : α → Except ε β} {xs : List α}
    (h : ∀ x ∈ xs, ∃ y, f x = .ok y) : ∃ ys, xs.mapM f = .ok ys := by
  induction xs with
  | nil => exact ⟨[], rfl⟩
  | cons x xs ih =>
    obtain ⟨y, hy⟩ := h x List.mem_cons_self
    obtain ⟨ys, hys⟩ := ih fun x' hx' => h x' (List.mem_cons_of_mem _ hx')
    exact ⟨y :: ys, mapM_eq_ok.mpr (.cons hy (mapM_eq_ok.mp hys))⟩

/-! ## Expected outcomes -/

/-- The call returned, or raised an error of the ledger. -/
def Settles {α : Type} (r : Except Error α) : Prop := ∀ e, r = .error e → e.isLedgerError = true

section Settles

variable {α β : Type}

theorem settles_ok (a : α) : Settles (.ok a : Except Error α) := nofun

theorem settles_error {e : Error} (h : e.isLedgerError = true) :
    Settles (.error e : Except Error α) := by
  rintro _ ⟨⟩
  exact h

theorem settles_bind {x : Except Error α} {f : α → Except Error β} (hx : Settles x)
    (hf : ∀ a, x = .ok a → Settles (f a)) : Settles (x >>= f) := by
  cases x with
  | ok a => exact hf a rfl
  | error e => exact settles_error (hx e rfl)

theorem settles_refuse {condition : Prop} [Decidable condition] {e : Error}
    (h : e.isLedgerError = true) : Settles (refuse condition e) := by
  unfold refuse
  split
  · exact settles_error h
  · exact settles_ok ()

end Settles

end Pine
