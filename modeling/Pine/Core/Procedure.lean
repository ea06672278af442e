import Pine.Core.Run

/-!
# Procedures that can be stopped

A procedure is a sequence of steps on a state, each at a named point. A step may fail
by itself, an error may be raised in its place, and the process may die in front of
it. Handlers see every error, raised ones included. `Safe` is the crash logic: a state
condition wherever the process may die, a postcondition for a returned value and one
for an error, all of them under what others may do to the state between two steps. It
composes along sequences and handlers, and it is sound for every run of a machine that
executes procedures one after the other.
-/

namespace Pine

/-- Steps at points of `ρ` on states of `σ`, ending with a value or a raised error. -/
inductive Procedure (ρ σ ε α : Type) where
  | done (result : Except ε α)
  | step (point : ρ) (effect : σ → Except ε σ) (rest : σ → Procedure ρ σ ε α)
      (raised : ε → Procedure ρ σ ε α)

namespace Procedure

variable {ρ σ ε α β : Type}

/-- Sequence two procedures; a raised error skips the second. -/
def bind : Procedure ρ σ ε α → (α → Procedure ρ σ ε β) → Procedure ρ σ ε β
  | done (.ok a), f => f a
  | done (.error e), _ => done (.error e)
  | step point effect rest raised, f =>
    step point effect (fun s => (rest s).bind f) fun e => (raised e).bind f

/-- Continue with the outcome of a procedure, whether it returned or raised. -/
def handle : Procedure ρ σ ε α → (Except ε α → Procedure ρ σ ε β) → Procedure ρ σ ε β
  | done r, f => f r
  | step point effect rest raised, f =>
    step point effect (fun s => (rest s).handle f) fun e => (raised e).handle f

instance : Monad (Procedure ρ σ ε) where
  pure a := done (.ok a)
  bind := bind

/-- One step that changes the state or fails. -/
def act (point : ρ) (effect : σ → Except ε σ) : Procedure ρ σ ε Unit :=
  step point effect (fun _ => done (.ok ())) fun e => done (.error e)

/-- One step that reads the state. -/
def ask (point : ρ) (read : σ → Except ε α) : Procedure ρ σ ε α :=
  step point .ok (fun s => done (read s)) fun e => done (.error e)

/-- Raise an error. -/
def raise (e : ε) : Procedure ρ σ ε α := done (.error e)

/-- The point that a procedure stands at, unless it has ended. -/
def point? : Procedure ρ σ ε α → Option ρ
  | done _ => none
  | step point _ _ _ => some point

/-- What can happen at a step. -/
inductive Event (ε : Type) where
  | exec
  | raise (e : ε)

/-- Execute a step, or raise an error in its place. -/
def advance : Procedure ρ σ ε α → σ → Event ε → Option (Procedure ρ σ ε α × σ)
  | done _, _, _ => none
  | step _ effect rest raised, s, .exec => match effect s with
    | .ok t => some (rest s, t)
    | .error e => some (raised e, s)
  | step _ _ _ raised, s, .raise e => some (raised e, s)

/-! ## Crash logic -/

/-- What surrounds a procedure: what others may do to the state between its steps, what is known of
the state whenever it takes a step at a point, where an error may be raised, where the process may
die, and what its death must find. -/
structure Environment (ρ σ : Type) where
  other : σ → σ → Prop
  clear : ρ → σ → Prop
  raises : ρ → Prop
  dies : ρ → Prop
  crash : σ → Prop

/-- What others may have made of a state. -/
abbrev Environment.Meets (env : Environment ρ σ) : σ → σ → Prop := Relation.ReflTransGen env.other

/-- Others keep the assertion. -/
def Environment.Stable (env : Environment ρ σ) (P : σ → Prop) : Prop :=
  ∀ s t, env.other s t → P s → P t

theorem Environment.Stable.meets {env : Environment ρ σ} {P : σ → Prop} (h : env.Stable P)
    {s t : σ} (hst : env.Meets s t) (hs : P s) : P t := by
  induction hst with
  | refl => exact hs
  | tail _ hstep ih => exact h _ _ hstep ih

theorem Environment.Stable.and {env : Environment ρ σ} {P Q : σ → Prop} (hP : env.Stable P)
    (hQ : env.Stable Q) : env.Stable fun s => P s ∧ Q s :=
  fun s t h ⟨hp, hq⟩ => ⟨hP s t h hp, hQ s t h hq⟩

/-- `Q` holds of a returned value and `E` of an error, and a death finds what it must. -/
def Safe (env : Environment ρ σ) (Q : α → σ → Prop) (E : ε → σ → Prop) :
    Procedure ρ σ ε α → σ → Prop
  | done r => fun s => match r with
    | .ok a => Q a s
    | .error e => E e s
  | step point effect rest raised => fun s => ∀ t, env.Meets s t →
    (env.dies point → env.crash t) ∧ (env.clear point t →
      (env.raises point → ∀ e, Safe env Q E (raised e) t) ∧
        match effect t with
        | .ok u => Safe env Q E (rest t) u
        | .error e => Safe env Q E (raised e) t)

variable {env : Environment ρ σ} {Q : α → σ → Prop} {E : ε → σ → Prop}

theorem safe_step {point : ρ} {effect : σ → Except ε σ} {rest : σ → Procedure ρ σ ε α}
    {raised : ε → Procedure ρ σ ε α} {s : σ} :
    Safe env Q E (step point effect rest raised) s ↔ ∀ t, env.Meets s t →
      (env.dies point → env.crash t) ∧ (env.clear point t →
        (env.raises point → ∀ e, Safe env Q E (raised e) t) ∧
          match effect t with
          | .ok u => Safe env Q E (rest t) u
          | .error e => Safe env Q E (raised e) t) := by
  rw [Safe]

theorem safe_return {a : α} {s : σ} (h : Q a s) : Safe env Q E (pure a) s := h

theorem safe_raise {e : ε} {s : σ} (h : E e s) : Safe env Q E (raise e) s := h

theorem safe_done {r : Except ε α} {s : σ} (hok : ∀ a, r = .ok a → Q a s)
    (herror : ∀ e, r = .error e → E e s) : Safe env Q E (done r) s := by
  cases r with
  | ok a => exact hok a rfl
  | error e => exact herror e rfl

/-- The second part continues from every outcome of the first. -/
theorem Safe.handle {R : α → σ → Prop} {F : ε → σ → Prop} {Q' : β → σ → Prop}
    {p : Procedure ρ σ ε α} {f : Except ε α → Procedure ρ σ ε β} {s : σ}
    (hp : Safe env R F p s) (hok : ∀ a t, R a t → Safe env Q' E (f (.ok a)) t)
    (herror : ∀ e t, F e t → Safe env Q' E (f (.error e)) t) :
    Safe env Q' E (p.handle f) s := by
  induction p generalizing s with
  | done r =>
    cases r with
    | ok a => exact hok a s hp
    | error e => exact herror e s hp
  | step point effect rest raised ihrest ihraised =>
    refine safe_step.mpr fun t ht => ?_
    obtain ⟨hdies, hstep⟩ := safe_step.mp hp t ht
    refine ⟨hdies, fun hclear => ?_⟩
    obtain ⟨hraises, hexec⟩ := hstep hclear
    refine ⟨fun hr e => ihraised e (hraises hr e), ?_⟩
    split
    · rename_i u heffect
      rw [heffect] at hexec
      exact ihrest t hexec
    · rename_i e heffect
      rw [heffect] at hexec
      exact ihraised e hexec

/-- The second part continues from every value that the first returned. -/
theorem Safe.bind {R : α → σ → Prop} {Q' : β → σ → Prop} {p : Procedure ρ σ ε α}
    {f : α → Procedure ρ σ ε β} {s : σ} (hp : Safe env R E p s)
    (hf : ∀ a t, R a t → Safe env Q' E (f a) t) : Safe env Q' E (p >>= f) s := by
  change Safe env Q' E (p.bind f) s
  induction p generalizing s with
  | done r =>
    cases r with
    | ok a => exact hf a s hp
    | error e => exact hp
  | step point effect rest raised ihrest ihraised =>
    refine safe_step.mpr fun t ht => ?_
    obtain ⟨hdies, hstep⟩ := safe_step.mp hp t ht
    refine ⟨hdies, fun hclear => ?_⟩
    obtain ⟨hraises, hexec⟩ := hstep hclear
    refine ⟨fun hr e => ihraised e (hraises hr e), ?_⟩
    split
    · rename_i u heffect
      rw [heffect] at hexec
      exact ihrest t hexec
    · rename_i e heffect
      rw [heffect] at hexec
      exact ihraised e hexec

/-- Postconditions may be weakened. -/
theorem Safe.mono {Q' : α → σ → Prop} {E' : ε → σ → Prop} {p : Procedure ρ σ ε α} {s : σ}
    (h : Safe env Q E p s) (hQ : ∀ a t, Q a t → Q' a t) (hE : ∀ e t, E e t → E' e t) :
    Safe env Q' E' p s := by
  induction p generalizing s with
  | done r =>
    cases r with
    | ok a => exact hQ a s h
    | error e => exact hE e s h
  | step point effect rest raised ihrest ihraised =>
    refine safe_step.mpr fun t ht => ?_
    obtain ⟨hdies, hstep⟩ := safe_step.mp h t ht
    refine ⟨hdies, fun hclear => ?_⟩
    obtain ⟨hraises, hexec⟩ := hstep hclear
    refine ⟨fun hr e => ihraised e (hraises hr e), ?_⟩
    split
    · rename_i u heffect
      rw [heffect] at hexec
      exact ihrest t hexec
    · rename_i e heffect
      rw [heffect] at hexec
      exact ihraised e hexec

/-- A step that changes the state, in front of which a stable assertion holds. -/
theorem safe_act {P : σ → Prop} {point : ρ} {effect : σ → Except ε σ} {Q : Unit → σ → Prop} {s : σ}
    (hs : P s) (hstable : env.Stable P) (hdies : ∀ t, P t → env.dies point → env.crash t)
    (hraises : ∀ t e, P t → E e t)
    (heffect : ∀ t u, P t → env.clear point t → effect t = .ok u → Q () u) :
    Safe env Q E (act point effect) s := by
  refine safe_step.mpr fun t hmeets => ?_
  have ht := hstable.meets hmeets hs
  refine ⟨hdies t ht, fun hclear => ⟨fun _ e => hraises t e ht, ?_⟩⟩
  split
  · exact heffect t _ ht hclear ‹_›
  · exact hraises t _ ht

/-- A step that reads the state, in front of which a stable assertion holds. -/
theorem safe_ask {P : σ → Prop} {point : ρ} {read : σ → Except ε α} {s : σ} (hs : P s)
    (hstable : env.Stable P) (hdies : ∀ t, P t → env.dies point → env.crash t)
    (hraises : ∀ t e, P t → E e t)
    (hread : ∀ t a, P t → env.clear point t → read t = .ok a → Q a t) :
    Safe env Q E (ask point read) s := by
  refine safe_step.mpr fun t hmeets => ?_
  have ht := hstable.meets hmeets hs
  exact ⟨hdies t ht, fun hclear => ⟨fun _ e => hraises t e ht,
    safe_done (fun a ha => hread t a ht hclear ha) fun e _ => hraises t e ht⟩⟩

/-! ## Undisturbed execution -/

/-- Execute a procedure in which no error is raised from outside and nothing else happens. -/
def exec : Procedure ρ σ ε α → σ → Except ε α × σ
  | done r, s => (r, s)
  | step _ effect rest raised, s => match effect s with
    | .ok t => (rest s).exec t
    | .error e => (raised e).exec s

/-- Nobody else is there, nothing is raised and nothing dies. -/
def undisturbed (ρ σ : Type) : Environment ρ σ where
  other _ _ := False
  clear _ _ := True
  raises _ := False
  dies _ := False
  crash _ := True

/-- What a procedure is safe for is what its execution ends with. -/
theorem Safe.exec {p : Procedure ρ σ ε α} {s : σ} (h : Safe (undisturbed ρ σ) Q E p s) :
    Safe (undisturbed ρ σ) Q E (done (p.exec s).1) (p.exec s).2 := by
  induction p generalizing s with
  | done r => exact h
  | step point effect rest raised ihrest ihraised =>
    obtain ⟨-, hexec⟩ := (safe_step.mp h s .refl).2 trivial
    simp only [Procedure.exec]
    split
    · rename_i t heffect
      rw [heffect] at hexec
      exact ihrest s hexec
    · rename_i e heffect
      rw [heffect] at hexec
      exact ihraised e hexec

/-- The second part is executed from where the first one returned. -/
theorem exec_bind_ok {p : Procedure ρ σ ε α} {f : α → Procedure ρ σ ε β} {s t : σ} {a : α}
    (h : p.exec s = (.ok a, t)) : (p >>= f).exec s = (f a).exec t := by
  change (p.bind f).exec s = _
  induction p generalizing s with
  | done r =>
    cases h
    rfl
  | step point effect rest raised ihrest ihraised =>
    simp only [Procedure.exec, Procedure.bind] at h ⊢
    split at h
    · exact ihrest s h
    · exact ihraised _ h

/-- A sequence executes its second part from where the first part returned. -/
theorem exec_bind {p : Procedure ρ σ ε α} {f : α → Procedure ρ σ ε β} (s : σ) :
    (p >>= f).exec s = match p.exec s with
      | (.ok a, t) => (f a).exec t
      | (.error e, t) => (.error e, t) := by
  change (p.bind f).exec s = _
  induction p generalizing s with
  | done r => cases r <;> rfl
  | step point effect rest raised ihrest ihraised =>
    simp only [Procedure.exec, Procedure.bind]
    split
    · exact ihrest s _
    · exact ihraised _ s

/-- A step that reads the state leaves it. -/
theorem exec_ask {point : ρ} {read : σ → Except ε α} (s : σ) :
    (ask point read).exec s = (read s, s) := rfl

/-- A step that changes the state, or raises in front of it. -/
theorem exec_act {point : ρ} {effect : σ → Except ε σ} (s : σ) :
    (act point effect).exec s = match effect s with
      | .ok t => (.ok (), t)
      | .error e => (.error e, s) := by
  simp only [act, Procedure.exec]

/-- A handler is executed from where the guarded part ended. -/
theorem exec_handle {p : Procedure ρ σ ε α} {f : Except ε α → Procedure ρ σ ε β} (s : σ) :
    (p.handle f).exec s = (f (p.exec s).1).exec (p.exec s).2 := by
  induction p generalizing s with
  | done r => rfl
  | step point effect rest raised ihrest ihraised =>
    simp only [Procedure.exec, Procedure.handle]
    split
    · exact ihrest s _
    · exact ihraised _ s

/-! ## Triples -/

/-- From `P` the procedure succeeds with `Q` or fails with `E`. -/
def Succeeds (env : Environment ρ σ) (E P : σ → Prop) (Q : α → σ → Prop) (p : Procedure ρ σ ε α) :
    Prop :=
  ∀ s, P s → Safe env Q (fun _ => E) p s

/-- From `P` the procedure leads to `Q`, returned or raised. -/
abbrev Triple (env : Environment ρ σ) (P Q : σ → Prop) (p : Procedure ρ σ ε α) : Prop :=
  Succeeds env Q P (fun _ => Q) p

/-- An assertion that others keep, and that is enough for a death. -/
structure Kept (env : Environment ρ σ) (P : σ → Prop) : Prop where
  stable : env.Stable P
  crash : ∀ s, P s → env.crash s

section Triples

variable {P R F : σ → Prop} {E : σ → Prop}

/-- An assertion may carry a stable fact. -/
theorem Kept.and (h : Kept env P) (hF : env.Stable F) : Kept env fun s => P s ∧ F s :=
  ⟨h.stable.and hF, fun s hs => h.crash s hs.1⟩

theorem succeeds_done {r : Except ε α} (hok : ∀ a, r = .ok a → ∀ s, P s → Q a s)
    (hE : ∀ s, P s → E s) : Succeeds env E P Q (done r : Procedure ρ σ ε α) :=
  fun s hs => safe_done (fun a ha => hok a ha s hs) fun _ _ => hE s hs

theorem succeeds_return {a : α} (h : ∀ s, P s → Q a s) :
    Succeeds env E P Q (pure a : Procedure ρ σ ε α) :=
  fun s hs => safe_return (h s hs)

theorem succeeds_raise {e : ε} (h : ∀ s, P s → E s) :
    Succeeds env E P Q (raise e : Procedure ρ σ ε α) :=
  fun s hs => safe_raise (h s hs)

theorem triple_done (r : Except ε α) : Triple env P P (done r : Procedure ρ σ ε α) :=
  succeeds_done (fun _ _ _ h => h) fun _ h => h

theorem Succeeds.mono {Q' : α → σ → Prop} {p : Procedure ρ σ ε α}
    (h : Succeeds env E P Q p) (hQ : ∀ a s, Q a s → Q' a s) (hE : ∀ s, E s → F s) :
    Succeeds env F P Q' p :=
  fun s hs => (h s hs).mono hQ fun _ => hE

/-- A stronger assertion is enough. -/
theorem Succeeds.pre {p : Procedure ρ σ ε α} (h : Succeeds env E P Q p) (hP : ∀ s, R s → P s) :
    Succeeds env E R Q p :=
  fun s hs => h s (hP s hs)

theorem Succeeds.bind {Q : β → σ → Prop} {R : α → σ → Prop} {p : Procedure ρ σ ε α}
    {f : α → Procedure ρ σ ε β} (hp : Succeeds env E P R p) (hf : ∀ a, Succeeds env E (R a) Q (f a)) :
    Succeeds env E P Q (p >>= f) :=
  fun s hs => (hp s hs).bind fun a t ht => hf a t ht

theorem Succeeds.handle {Q : β → σ → Prop} {R : α → σ → Prop} {p : Procedure ρ σ ε α}
    {f : Except ε α → Procedure ρ σ ε β} (hp : Succeeds env F P R p)
    (hok : ∀ a, Succeeds env E (R a) Q (f (.ok a))) (herror : ∀ e, Succeeds env E F Q (f (.error e))) :
    Succeeds env E P Q (p.handle f) :=
  fun s hs => (hp s hs).handle (fun a t ht => hok a t ht) fun e t ht => herror e t ht

theorem Triple.seq {p : Procedure ρ σ ε α} {f : α → Procedure ρ σ ε β} (hp : Triple env P P p)
    (hf : ∀ a, Triple env P P (f a)) : Triple env P P (p >>= f) :=
  Succeeds.bind hp hf

/-- One step that changes the state. -/
theorem succeeds_act {point : ρ} {effect : σ → Except ε σ} {Q : Unit → σ → Prop}
    (hP : Kept env P) (hE : ∀ s, P s → E s)
    (h : ∀ s t, P s → env.clear point s → effect s = .ok t → Q () t) :
    Succeeds env E P Q (act point effect) :=
  fun _ hs => safe_act hs hP.stable (fun t ht _ => hP.crash t ht) (fun t _ ht => hE t ht) h

/-- A step that keeps the assertion. -/
theorem triple_act {point : ρ} {effect : σ → Except ε σ} (hP : Kept env P)
    (h : ∀ s t, P s → env.clear point s → effect s = .ok t → P t) :
    Triple env P P (act point effect) :=
  succeeds_act hP (fun _ h => h) h

/-- A reading step: the rest may rely on stable facts about what was read. -/
theorem succeeds_ask {point : ρ} {read : σ → Except ε α} {f : α → Procedure ρ σ ε β}
    {Q : β → σ → Prop} {F : α → σ → Prop} (hP : Kept env P) (hE : ∀ s, P s → E s)
    (hread : ∀ s a, P s → env.clear point s → read s = .ok a → F a s)
    (hf : ∀ a, Succeeds env E (fun s => P s ∧ F a s) Q (f a)) :
    Succeeds env E P Q (ask point read >>= f) := by
  refine Succeeds.bind (R := fun a t => P t ∧ F a t) (fun s hs => ?_) hf
  exact safe_ask hs hP.stable (fun t ht _ => hP.crash t ht) (fun t _ ht => hE t ht)
    fun t a ht hclear ha => ⟨ht, hread t a ht hclear ha⟩

/-- A reading step about which nothing is to be known. -/
theorem succeeds_look {point : ρ} {read : σ → Except ε α} {f : α → Procedure ρ σ ε β}
    {Q : β → σ → Prop} (hP : Kept env P) (hE : ∀ s, P s → E s)
    (hf : ∀ a, Succeeds env E P Q (f a)) : Succeeds env E P Q (ask point read >>= f) :=
  succeeds_ask (F := fun _ _ => True) hP hE (fun _ _ _ _ _ => trivial) fun a =>
    (hf a).pre fun _ h => h.1

end Triples

/-! ## Soundness -/

/-- Every execution step of a safe procedure leaves a safe one. -/
theorem Safe.advance {p q : Procedure ρ σ ε α} {s t u : σ} {event : Event ε}
    (h : Safe env Q E p s) (hmeets : env.Meets s t) (hclear : ∀ point ∈ p.point?, env.clear point t)
    (hstep : p.advance t event = some (q, u))
    (hraise : ∀ e, event = .raise e → ∀ point ∈ p.point?, env.raises point) :
    Safe env Q E q u := by
  cases p with
  | done r => cases hstep
  | step point effect rest raised =>
    obtain ⟨hraises, hexec⟩ := (safe_step.mp h t hmeets).2 (hclear point rfl)
    cases event with
    | exec =>
      simp only [Procedure.advance] at hstep
      split at hstep
      · rename_i t' heffect
        cases hstep
        rwa [heffect] at hexec
      · rename_i e heffect
        cases hstep
        rwa [heffect] at hexec
    | raise e =>
      cases hstep
      exact hraises (hraise e rfl point rfl) e

end Procedure

/-! ## Machines -/

open Procedure

/-- The state that a process works on, and the procedure that it executes. -/
structure Machine (ρ σ ε : Type) where
  state : σ
  running : Option (Procedure ρ σ ε Unit)

namespace Machine

variable {ρ σ ε : Type}

/-- What can happen to a machine. -/
inductive Happening (ρ σ ε : Type) where
  | start (procedure : Procedure ρ σ ε Unit)
  | step (event : Procedure.Event ε)
  | finish (result : Except ε Unit)
  | die
  | other

/-- A machine executes one procedure at a time; when the process dies its memory is lost, and others
may change the state at any time. -/
inductive Step (die : σ → σ) (other : σ → σ → Prop) :
    Machine ρ σ ε → Happening ρ σ ε → Machine ρ σ ε → Prop
  | start (s : σ) (p : Procedure ρ σ ε Unit) : Step die other ⟨s, none⟩ (.start p) ⟨s, some p⟩
  | step (s t : σ) (p q : Procedure ρ σ ε Unit) (event : Procedure.Event ε) :
      p.advance s event = some (q, t) → Step die other ⟨s, some p⟩ (.step event) ⟨t, some q⟩
  | finish (s : σ) (r : Except ε Unit) : Step die other ⟨s, some (.done r)⟩ (.finish r) ⟨s, none⟩
  | die (s : σ) (p : Procedure ρ σ ε Unit) : Step die other ⟨s, some p⟩ .die ⟨die s, none⟩
  | other (s t : σ) (running : Option (Procedure ρ σ ε Unit)) :
      other s t → Step die other ⟨s, running⟩ .other ⟨t, running⟩

/-- What a machine does next of its own. -/
def next? (die : σ → σ) : Machine ρ σ ε → Happening ρ σ ε → Option (Machine ρ σ ε)
  | ⟨s, none⟩, .start p => some ⟨s, some p⟩
  | ⟨s, some p⟩, .step event => (p.advance s event).map fun (q, t) => ⟨t, some q⟩
  | ⟨s, some _⟩, .die => some ⟨die s, none⟩
  | _, _ => none

theorem Step.of_next {die : σ → σ} {other : σ → σ → Prop} {m n : Machine ρ σ ε}
    {h : Happening ρ σ ε} (hnext : next? die m h = some n) : Step die other m h n := by
  unfold next? at hnext
  split at hnext
  · cases hnext
    exact .start _ _
  · obtain ⟨⟨q, t⟩, hadvance, heq⟩ := Option.map_eq_some_iff.mp hnext
    cases heq
    exact .step _ _ _ _ _ hadvance
  · cases hnext
    exact .die _ _
  · cases hnext

/-- The procedure of the machine has returned. -/
def returned : Machine ρ σ ε → Bool
  | ⟨_, some (.done (.ok _))⟩ => true
  | _ => false

theorem Step.of_returned {die : σ → σ} {other : σ → σ → Prop} {m : Machine ρ σ ε}
    (h : m.returned = true) : Step die other m (.finish (.ok ())) ⟨m.state, none⟩ := by
  unfold returned at h
  split at h
  · exact .finish _ _
  · cases h

/-- A machine only starts when it is idle. -/
theorem Step.start_idle {die : σ → σ} {other : σ → σ → Prop} {m n : Machine ρ σ ε}
    {p : Procedure ρ σ ε Unit} (h : Step die other m (.start p) n) : m.running = none := by
  cases h
  rfl

/-- Steps that a machine takes of its own are a run. -/
theorem run_of_follow {die : σ → σ} {other : σ → σ → Prop} {m : Machine ρ σ ε}
    {events : List (Happening ρ σ ε)} (h : (follow (next? die) m events).isSome = true) :
    ∃ trace, Run (Step die other) m trace ((follow (next? die) m events).getD m) ∧
      trace.map Prod.snd = events := by
  obtain ⟨n, hn⟩ := Option.isSome_iff_exists.mp h
  obtain ⟨trace, hrun, hevents⟩ := Run.of_follow hn
  refine ⟨trace, ?_, hevents⟩
  rw [hn, Option.getD_some]
  exact hrun.mono fun _ _ _ => Step.of_next

/-- The point that the machine stands at. -/
def point? (m : Machine ρ σ ε) : Option ρ := m.running.bind Procedure.point?

/-- What is asked of a run: steps are taken in clear states, and errors and deaths come where the
environment has them. -/
def Admits (env : Environment ρ σ) (admitted : Procedure ρ σ ε Unit → Prop) (m : Machine ρ σ ε) :
    Happening ρ σ ε → Prop
  | .start p => admitted p
  | .step event => ∀ point ∈ m.point?, env.clear point m.state ∧
      ∀ e, event = .raise e → env.raises point
  | .die => ∀ point ∈ m.point?, env.dies point
  | .finish _ | .other => True

/-- The idle states keep `J`, and a running procedure is safe from a state that only others have
changed since. -/
def Sound (env : Environment ρ σ) (J K : σ → Prop) (m : Machine ρ σ ε) : Prop :=
  match m.running with
  | none => J m.state
  | some p => ∃ s, env.Meets s m.state ∧ Safe env (fun _ => K) (fun _ => J) p s

/-- What all admitted procedures are safe for, from every state of `J`. -/
structure Specification (env : Environment ρ σ) (die : σ → σ) (J K : σ → Prop)
    (admitted : Procedure ρ σ ε Unit → Prop) : Prop where
  safe : ∀ p, admitted p → Succeeds env J J (fun _ => K) p
  stable : env.Stable J
  stable_done : env.Stable K
  idle : ∀ s, K s → J s
  crash : ∀ s, J s → env.crash s
  dead : ∀ s, env.crash s → J (die s)

/-- Wherever a sound machine may die, its death finds what it must. -/
theorem Sound.crash {env : Environment ρ σ} {die : σ → σ} {J K : σ → Prop}
    {admitted : Procedure ρ σ ε Unit → Prop} (spec : Specification env die J K admitted)
    {m : Machine ρ σ ε} (hm : Sound env J K m) (hdies : ∀ point ∈ m.point?, env.dies point) :
    env.crash m.state := by
  obtain ⟨state, running⟩ := m
  cases running with
  | none => exact spec.crash _ hm
  | some p =>
    obtain ⟨base, hbase, hsafe⟩ := hm
    cases p with
    | done r =>
      cases r with
      | ok u => exact spec.crash _ (spec.idle _ (spec.stable_done.meets hbase hsafe))
      | error e => exact spec.crash _ (spec.stable.meets hbase hsafe)
    | step point effect rest raised => exact (safe_step.mp hsafe _ hbase).1 (hdies point rfl)

/-- The crash logic is sound: every step of a sound machine leaves a sound one. -/
theorem Step.sound {env : Environment ρ σ} {die : σ → σ} {J K : σ → Prop}
    {admitted : Procedure ρ σ ε Unit → Prop} (spec : Specification env die J K admitted)
    {m n : Machine ρ σ ε} {h : Happening ρ σ ε} (hstep : Step die env.other m h n)
    (hadmits : Admits env admitted m h) (hm : Sound env J K m) : Sound env J K n := by
  cases hstep with
  | start s p => exact ⟨s, .refl, spec.safe p hadmits s hm⟩
  | step s t p q event hadvance =>
    obtain ⟨base, hbase, hsafe⟩ := hm
    refine ⟨t, .refl, hsafe.advance hbase (fun point hpoint => (hadmits point hpoint).1) hadvance ?_⟩
    intro e he point hpoint
    exact (hadmits point hpoint).2 e he
  | finish s r =>
    obtain ⟨base, hbase, hsafe⟩ := hm
    cases r with
    | ok u => exact spec.idle s (spec.stable_done.meets hbase hsafe)
    | error e => exact spec.stable.meets hbase hsafe
  | die s p => exact spec.dead s (hm.crash spec hadmits)
  | other s t running hother =>
    cases running with
    | none => exact spec.stable s t hother hm
    | some p =>
      obtain ⟨base, hbase, hsafe⟩ := hm
      exact ⟨base, hbase.tail hother, hsafe⟩

/-- Every state of a run of admitted procedures is sound. -/
theorem sound_of_run {env : Environment ρ σ} {die : σ → σ} {J K : σ → Prop}
    {admitted : Procedure ρ σ ε Unit → Prop} (spec : Specification env die J K admitted)
    {m n : Machine ρ σ ε} {trace : List (Machine ρ σ ε × Happening ρ σ ε)}
    (h : Run (Step die env.other) m trace n) (hadmits : ∀ x ∈ trace, Admits env admitted x.1 x.2)
    (hm : Sound env J K m) : Sound env J K n :=
  h.invariant_of (Sound env J K) (Admits env admitted)
    (fun _ _ _ hx hs hstep => hstep.sound spec hx hs) hadmits hm

/-- A procedure that finishes without an error leaves its postcondition. -/
theorem Sound.finish {env : Environment ρ σ} {die : σ → σ} {J K : σ → Prop} {m n : Machine ρ σ ε}
    (hm : Sound env J K m) (hK : env.Stable K) (hstep : Step die env.other m (.finish (.ok ())) n) : K n.state := by
  cases hstep with
  | finish s =>
    obtain ⟨base, hbase, hsafe⟩ := hm
    exact hK.meets hbase hsafe

end Machine

end Pine
