import Mathlib.Data.List.Basic

/-!
# Schema scripts

The catalog of a database, and scripts that change it together with the rows. A script is
run as one transaction: when a statement fails, nothing of it is left.
-/

namespace Pine

inductive ObjectKind where
  | table
  | index
  | trigger
  deriving DecidableEq

/-- A table, or an index or a trigger of a table. -/
structure SchemaObject (ν : Type) where
  kind : ObjectKind
  name : ν
  table : ν
  deriving DecidableEq

/-- The objects of a database. -/
abbrev Catalog (ν : Type) := List (SchemaObject ν)

/-- A statement of a script; what it does to rows is given by an effect. -/
inductive SchemaStatement (ν ε : Type) where
  | create (if_not_exists : Bool) (object : SchemaObject ν)
  | drop (kind : ObjectKind) (name : ν)
  | rename (table name : ν)
  | rows (effect : ε)

namespace Catalog

variable {ν ε ρ : Type} [DecidableEq ν]

/-- Tables and indexes share their names, triggers have their own. -/
def clashes (object other : SchemaObject ν) : Bool :=
  other.name == object.name && ((other.kind == .trigger) == (object.kind == .trigger))

/-- There is a table of this name. -/
def hasTable (catalog : Catalog ν) (name : ν) : Bool :=
  catalog.any fun object => object.kind == .table && object.name == name

/-- `CREATE ...`, with or without `IF NOT EXISTS` -/
def create (catalog : Catalog ν) (if_not_exists : Bool) (object : SchemaObject ν) :
    Option (Catalog ν) :=
  match List.find? (clashes object) catalog with
  | some other => if if_not_exists && other.kind == object.kind then some catalog else none
  | none =>
    if object.kind == .table || hasTable catalog object.table then some (catalog ++ [object]) else none

/-- `DROP ...`: with a table go its indexes and its triggers. -/
def drop (catalog : Catalog ν) (kind : ObjectKind) (name : ν) : Option (Catalog ν) :=
  if catalog.any fun object => object.kind == kind && object.name == name then
    some (List.filter (fun object => if kind == .table then object.table != name
      else !(object.kind == kind && object.name == name)) catalog)
  else none

/-- `ALTER TABLE ... RENAME TO ...`: its indexes and its triggers stay with the table. -/
def rename (catalog : Catalog ν) (table name : ν) : Option (Catalog ν) :=
  if hasTable catalog table && !List.any catalog (clashes ⟨.table, name, name⟩) then
    some (List.map (fun object => if object.table = table then
      ⟨object.kind, if object.kind == .table then name else object.name, name⟩ else object) catalog)
  else none

/-- What a statement does to the catalog. -/
def execute (catalog : Catalog ν) : SchemaStatement ν ε → Option (Catalog ν)
  | .create if_not_exists object => catalog.create if_not_exists object
  | .drop kind name => catalog.drop kind name
  | .rename table name => catalog.rename table name
  | .rows _ => some catalog

/-- What a script does to the catalog. -/
def executeAll (script : List (SchemaStatement ν ε)) (catalog : Catalog ν) : Option (Catalog ν) :=
  script.foldlM execute catalog

end Catalog

namespace SchemaStatement

variable {ν ε ρ : Type}

/-- What a script does to rows. -/
def effects (script : List (SchemaStatement ν ε)) : List ε :=
  script.filterMap fun
    | .rows effect => some effect
    | _ => none

/-- Effects, one after the other, as long as no constraint refuses the rows. -/
def performAll (perform : ε → ρ → Option ρ) (effects : List ε) (rows : ρ) : Option ρ :=
  effects.foldlM (fun rows effect => perform effect rows) rows

theorem performAll_append (perform : ε → ρ → Option ρ) (before after : List ε) (rows : ρ) :
    performAll perform (before ++ after) rows =
      (performAll perform before rows).bind (performAll perform after) :=
  List.foldlM_append

theorem isSome_performAll {perform : ε → ρ → Option ρ}
    (h : ∀ effect rows, (perform effect rows).isSome = true) (effects : List ε) (rows : ρ) :
    (performAll perform effects rows).isSome = true := by
  induction effects generalizing rows with
  | nil => rfl
  | cons effect effects ih =>
    obtain ⟨rows', hrows⟩ := Option.isSome_iff_exists.mp (h effect rows)
    rw [performAll, List.foldlM_cons, hrows]
    exact ih rows'

variable [DecidableEq ν] {perform : ε → ρ → Option ρ}

/-- A statement. -/
def run (perform : ε → ρ → Option ρ) (database : Catalog ν × ρ) (statement : SchemaStatement ν ε) :
    Option (Catalog ν × ρ) :=
  match statement with
  | .rows effect => (perform effect database.2).map fun rows => (database.1, rows)
  | statement => (database.1.execute statement).map fun catalog => (catalog, database.2)

/-- A script. -/
def runAll (perform : ε → ρ → Option ρ) (script : List (SchemaStatement ν ε))
    (database : Catalog ν × ρ) : Option (Catalog ν × ρ) :=
  script.foldlM (run perform) database

/-- A script fails in the catalog, or in the rows, or it does both parts of its work. -/
theorem runAll_eq (script : List (SchemaStatement ν ε)) (catalog : Catalog ν) (rows : ρ) :
    runAll perform script (catalog, rows) = (catalog.executeAll script).bind fun catalog' =>
      (performAll perform (effects script) rows).map fun rows' => (catalog', rows') := by
  induction script generalizing catalog rows with
  | nil => rfl
  | cons statement script ih =>
    have hsame : ∀ catalog' : Option (Catalog ν), effects (statement :: script) = effects script →
        ((catalog'.map fun catalog => (catalog, rows)).bind fun database =>
            runAll perform script database) =
          (catalog'.bind fun catalog => catalog.executeAll script).bind fun catalog =>
            (performAll perform (effects (statement :: script)) rows).map fun rows => (catalog, rows) := by
      intro catalog' heffects
      cases catalog' with
      | none => rfl
      | some catalog' =>
        rw [heffects]
        exact ih catalog' rows
    cases statement with
    | create if_not_exists object => exact hsame (catalog.create if_not_exists object) rfl
    | drop kind name => exact hsame (catalog.drop kind name) rfl
    | rename table name => exact hsame (catalog.rename table name) rfl
    | rows effect =>
      change ((perform effect rows).map fun rows => (catalog, rows)).bind
        (fun database => runAll perform script database) = (catalog.executeAll script).bind
          fun catalog => ((perform effect rows).bind (performAll perform (effects script))).map
            fun rows => (catalog, rows)
      cases perform effect rows with
      | none => cases catalog.executeAll script <;> rfl
      | some rows => exact ih catalog rows

end SchemaStatement

end Pine
