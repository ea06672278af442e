import Mathlib.Data.List.Basic

/-!
# Files with identities

A disk maps paths to files, and a file is an inode with its content: a hard link puts
the same file under a second path. Creating and linking refuse a path that is taken,
and unlinking a free path changes nothing.
-/

namespace Pine

/-- An inode with its content. -/
structure File (γ : Type) where
  inode : Nat
  content : γ
  deriving DecidableEq

/-- The linked paths, and the next inode that was never used. -/
structure Disk (κ γ : Type) where
  links : List (κ × File γ)
  next : Nat

namespace Disk

variable {κ γ : Type} [DecidableEq κ]

/-- The file under a path. -/
def get? (d : Disk κ γ) (p : κ) : Option (File γ) := (d.links.find? (·.1 = p)).map Prod.snd

/-- Link a file under a path, whatever was there. -/
def put (d : Disk κ γ) (p : κ) (f : File γ) : Disk κ γ :=
  { d with links := (p, f) :: d.links.filter (·.1 ≠ p) }

/-- Remove a path, if it is there. -/
def unlink (d : Disk κ γ) (p : κ) : Disk κ γ := { d with links := d.links.filter (·.1 ≠ p) }

/-- The linked paths. -/
def paths (d : Disk κ γ) : List κ := d.links.map Prod.fst

/-- A new file under a free path. -/
def create (d : Disk κ γ) (p : κ) (content : γ) : Option (Disk κ γ) :=
  if (d.get? p).isSome then none
  else some { d.put p ⟨d.next, content⟩ with next := d.next + 1 }

/-- Write the content of the file under a path. -/
def fill (d : Disk κ γ) (p : κ) (content : γ) : Option (Disk κ γ) :=
  (d.get? p).map fun f => d.put p { f with content }

/-- A second link to the file under `source`, at a free path. -/
def link (d : Disk κ γ) (source target : κ) : Option (Disk κ γ) :=
  if (d.get? target).isSome then none else (d.get? source).map (d.put target)

/-- Move the file under `source`, replacing what was at the other path. -/
def rename (d : Disk κ γ) (source target : κ) : Option (Disk κ γ) :=
  (d.get? source).map fun f => (d.unlink source).put target f

/-- Both paths are links to one inode. -/
def sameFile (d : Disk κ γ) (p q : κ) : Bool :=
  match d.get? p, d.get? q with
  | some f, some g => f.inode == g.inode
  | _, _ => false

@[simp] theorem get?_unlink (d : Disk κ γ) (p q : κ) :
    (d.unlink p).get? q = if q = p then none else d.get? q := by
  unfold unlink get?
  induction d.links with
  | nil => simp
  | cons l links ih =>
    by_cases hp : l.1 = p
    · by_cases hq : q = p
      · simp [hp, hq]
      · have hne : ¬ p = q := fun h => hq h.symm
        simpa [hp, hq, hne] using ih
    · by_cases hl : l.1 = q
      · have hq : ¬ q = p := fun h => hp (hl.trans h)
        simp [hl, hq]
      · simpa [hp, hl] using ih

@[simp] theorem get?_put (d : Disk κ γ) (p q : κ) (f : File γ) :
    (d.put p f).get? q = if q = p then some f else d.get? q := by
  by_cases h : q = p
  · simp [put, get?, h]
  · have hne : ¬ p = q := fun heq => h heq.symm
    have hunlink : (d.unlink p).get? q = d.get? q := by rw [get?_unlink, if_neg h]
    have hskip : (d.put p f).get? q = (d.unlink p).get? q := by
      unfold put unlink get?
      rw [List.find?_cons_of_neg (by simpa using hne)]
    rw [hskip, hunlink, if_neg h]

@[simp] theorem get?_next (d : Disk κ γ) (n : Nat) (q : κ) :
    ({ d with next := n } : Disk κ γ).get? q = d.get? q := rfl

theorem create_some {d d' : Disk κ γ} {p : κ} {content : γ} (h : d.create p content = some d') :
    d.get? p = none ∧ d' = { d.put p ⟨d.next, content⟩ with next := d.next + 1 } := by
  unfold create at h
  split at h
  · cases h
  · rename_i hfree
    exact ⟨by simpa using hfree, (Option.some.inj h).symm⟩

theorem create_of_free {d : Disk κ γ} {p : κ} (content : γ) (h : d.get? p = none) :
    d.create p content = some { d.put p ⟨d.next, content⟩ with next := d.next + 1 } := by
  simp [create, h]

theorem fill_some {d d' : Disk κ γ} {p : κ} {content : γ} (h : d.fill p content = some d') :
    ∃ f, d.get? p = some f ∧ d' = d.put p { f with content } := by
  obtain ⟨f, hf, rfl⟩ := Option.map_eq_some_iff.mp h
  exact ⟨f, hf, rfl⟩

theorem link_some {d d' : Disk κ γ} {source target : κ} (h : d.link source target = some d') :
    d.get? target = none ∧ ∃ f, d.get? source = some f ∧ d' = d.put target f := by
  unfold link at h
  split at h
  · cases h
  · rename_i hfree
    obtain ⟨f, hf, rfl⟩ := Option.map_eq_some_iff.mp h
    exact ⟨by simpa using hfree, f, hf, rfl⟩

theorem rename_some {d d' : Disk κ γ} {source target : κ} (h : d.rename source target = some d') :
    ∃ f, d.get? source = some f ∧ d' = (d.unlink source).put target f := by
  obtain ⟨f, hf, rfl⟩ := Option.map_eq_some_iff.mp h
  exact ⟨f, hf, rfl⟩

theorem mem_paths {d : Disk κ γ} {p : κ} : p ∈ d.paths ↔ (d.get? p).isSome = true := by
  simp [paths, get?, List.find?_isSome]

end Disk

end Pine
