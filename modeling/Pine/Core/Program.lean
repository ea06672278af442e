import Pine.Core.Run

/-!
# Programs of atomic statements and immediate transactions

A program is a sequence of atomic statements over a state, each of which sees the
state, changes it, and selects the rest of the program. Its big-step meaning is
`Program.run`. The transaction system interleaves the statements of many
programs: beginning a transaction needs the writer slot, its statements work on a
copy of the committed state, and only a commit publishes that copy. Every
published state is then the big-step result of one whole program on the state
that was committed before.
-/

namespace Pine

/-- Atomic statements over `σ` that end with a value or a raised error. -/
inductive Program (σ ε α : Type) where
  | done (result : Except ε α)
  | next (effect : σ → σ) (rest : σ → Program σ ε α)

namespace Program

variable {σ ε α β : Type}

/-- Sequence two programs; a raised error skips the second. -/
def bind : Program σ ε α → (α → Program σ ε β) → Program σ ε β
  | done (.ok a), f => f a
  | done (.error e), _ => done (.error e)
  | next effect rest, f => next effect fun s => (rest s).bind f

instance : Monad (Program σ ε) where
  pure a := done (.ok a)
  bind := bind

/-- One statement: it returns a value with the changed state, or raises and changes nothing. -/
def statement (f : σ → Except ε (α × σ)) : Program σ ε α :=
  next (fun s => match f s with | .ok (_, t) => t | .error _ => s)
    fun s => match f s with | .ok (a, _) => done (.ok a) | .error e => done (.error e)

/-- A statement that only reads. -/
def query (f : σ → Except ε α) : Program σ ε α :=
  statement fun s => (f s).map fun a => (a, s)

/-- A statement that only writes. -/
def update (f : σ → Except ε σ) : Program σ ε Unit :=
  statement fun s => (f s).map fun t => ((), t)

/-- Raise an error. -/
def raise (e : ε) : Program σ ε α := done (.error e)

/-- Lift a pure check. -/
def check (r : Except ε α) : Program σ ε α := done r

/-- Big-step meaning: the result, and the state when the program ended. -/
def run : Program σ ε α → σ → Except ε α × σ
  | done r, s => (r, s)
  | next effect rest, s => (rest s).run (effect s)

@[simp] theorem run_done (r : Except ε α) (s : σ) : (done r : Program σ ε α).run s = (r, s) := rfl

@[simp] theorem run_pure (a : α) (s : σ) : (pure a : Program σ ε α).run s = (.ok a, s) := rfl

@[simp] theorem run_raise (e : ε) (s : σ) : (raise e : Program σ ε α).run s = (.error e, s) := rfl

@[simp] theorem run_check (r : Except ε α) (s : σ) : (check r : Program σ ε α).run s = (r, s) := rfl

@[simp] theorem run_next (effect : σ → σ) (rest : σ → Program σ ε α) (s : σ) :
    (next effect rest).run s = (rest s).run (effect s) := rfl

/-- A sequence runs its second part from where the first part returned. -/
theorem run_bind (p : Program σ ε α) (f : α → Program σ ε β) (s : σ) :
    (p >>= f).run s = match p.run s with
      | (.ok a, t) => (f a).run t
      | (.error e, t) => (.error e, t) := by
  change (p.bind f).run s = _
  induction p generalizing s with
  | done r => cases r <;> rfl
  | next effect rest ih => exact ih s (effect s)

theorem run_statement (f : σ → Except ε (α × σ)) (s : σ) :
    (statement f).run s = match f s with
      | .ok (a, t) => (.ok a, t)
      | .error e => (.error e, s) := by
  simp only [statement, run_next]
  cases f s <;> rfl

theorem run_query (f : σ → Except ε α) (s : σ) : (query f).run s = (f s, s) := by
  rw [query, run_statement]
  cases f s <;> rfl

theorem run_update (f : σ → Except ε σ) (s : σ) :
    (update f).run s = match f s with
      | .ok t => (.ok (), t)
      | .error e => (.error e, s) := by
  rw [update, run_statement]
  cases f s <;> rfl

/-- What a successful sequence did: both parts returned. -/
theorem run_bind_ok {p : Program σ ε α} {f : α → Program σ ε β} {s u : σ} {b : β} :
    (p >>= f).run s = (.ok b, u) ↔ ∃ a t, p.run s = (.ok a, t) ∧ (f a).run t = (.ok b, u) := by
  rw [run_bind]
  rcases hp : p.run s with ⟨_ | a, t⟩ <;> simp

theorem run_query_ok {f : σ → Except ε α} {s t : σ} {a : α} :
    (query f).run s = (.ok a, t) ↔ f s = .ok a ∧ t = s := by
  rw [run_query, Prod.mk.injEq, eq_comm (a := s)]

theorem run_update_ok {f : σ → Except ε σ} {s t : σ} {a : Unit} :
    (update f).run s = (.ok a, t) ↔ f s = .ok t := by
  rw [run_update]
  cases f s <;> simp

theorem run_check_ok {r : Except ε α} {s t : σ} {a : α} :
    (check r : Program σ ε α).run s = (.ok a, t) ↔ r = .ok a ∧ t = s := by
  rw [run_check, Prod.mk.injEq, eq_comm (a := s)]

theorem run_pure_ok {a b : α} {s t : σ} :
    (pure a : Program σ ε α).run s = (.ok b, t) ↔ a = b ∧ t = s := by
  rw [run_pure, Prod.mk.injEq, Except.ok.injEq, eq_comm (a := s)]

/-- A successful sequence that begins with a check. -/
theorem run_check_bind_ok {r : Except ε α} {f : α → Program σ ε β} {s u : σ} {b : β} :
    (check r >>= f).run s = (.ok b, u) ↔ ∃ a, r = .ok a ∧ (f a).run s = (.ok b, u) := by
  rw [run_bind_ok]
  constructor
  · rintro ⟨a, t, hrun, hf⟩
    obtain ⟨hr, rfl⟩ := run_check_ok.mp hrun
    exact ⟨a, hr, hf⟩
  · rintro ⟨a, hr, hf⟩
    exact ⟨a, s, run_check_ok.mpr ⟨hr, rfl⟩, hf⟩

/-- A program whose result is no error returned it with its final state. -/
theorem run_of_isOk {p : Program σ ε α} {s : σ} (h : (p.run s).1.isOk = true) :
    ∃ a, p.run s = (.ok a, (p.run s).2) := by
  rcases hp : p.run s with ⟨_ | a, t⟩
  · rw [hp] at h
    cases h
  · exact ⟨a, rfl⟩

/-! ## Relations kept by every statement -/

/-- Every run of the program, failed or not, relates where it began to where it ended. -/
def Relates (R : σ → σ → Prop) (p : Program σ ε α) : Prop := ∀ s, R s (p.run s).2

namespace Relates

variable {R : σ → σ → Prop}

theorem done (hrefl : ∀ s, R s s) (r : Except ε α) : Relates R (Program.done r : Program σ ε α) :=
  fun s => hrefl s

/-- The second part may rely on what the first one returned. -/
theorem bind {p : Program σ ε α} {f : α → Program σ ε β} (hp : Relates R p)
    (hf : ∀ s a t, p.run s = (.ok a, t) → Relates R (f a))
    (htrans : ∀ s t u, R s t → R t u → R s u) : Relates R (p >>= f) := by
  intro s
  have hs := hp s
  rw [run_bind]
  split
  · rename_i a t heq
    rw [heq] at hs
    exact htrans _ _ _ hs (hf s a t heq t)
  · rename_i e t heq
    rw [heq] at hs
    exact hs

theorem statement (hrefl : ∀ s, R s s) {f : σ → Except ε (α × σ)}
    (h : ∀ s a t, f s = .ok (a, t) → R s t) : Relates R (Program.statement f) := by
  intro s
  rw [run_statement]
  split
  · exact h s _ _ ‹_›
  · exact hrefl s

theorem query (hrefl : ∀ s, R s s) (f : σ → Except ε α) : Relates R (Program.query f) := by
  intro s
  rw [run_query]
  exact hrefl s

theorem update (hrefl : ∀ s, R s s) {f : σ → Except ε σ} (h : ∀ s t, f s = .ok t → R s t) :
    Relates R (Program.update f) := by
  intro s
  rw [run_update]
  split
  · exact h s _ ‹_›
  · exact hrefl s

end Relates

/-! ## Relations kept by single statements -/

/-- Every statement of the program, whatever state it meets, relates that state to the one it
leaves. -/
def Each (R : σ → σ → Prop) : Program σ ε α → Prop
  | done _ => True
  | next effect rest => ∀ s, R s (effect s) ∧ (rest s).Each R

namespace Each

variable {R : σ → σ → Prop}

theorem check (r : Except ε α) : (Program.check r : Program σ ε α).Each R := trivial

theorem pure (a : α) : (Pure.pure a : Program σ ε α).Each R := trivial

theorem raise (e : ε) : (Program.raise e : Program σ ε α).Each R := trivial

theorem bind {p : Program σ ε α} {f : α → Program σ ε β} (hp : p.Each R) (hf : ∀ a, (f a).Each R) :
    (p >>= f).Each R := by
  change (p.bind f).Each R
  induction p with
  | done r =>
    cases r with
    | ok a => exact hf a
    | error e => trivial
  | next effect rest ih => exact fun s => ⟨(hp s).1, ih s (hp s).2⟩

theorem statement (hrefl : ∀ s, R s s) {f : σ → Except ε (α × σ)}
    (h : ∀ s a t, f s = .ok (a, t) → R s t) : (Program.statement f).Each R := by
  intro s
  constructor
  · show R s (match f s with | .ok (_, t) => t | .error _ => s)
    split
    · exact h s _ _ ‹_›
    · exact hrefl s
  · show Each R (match f s with | .ok (a, _) => done (.ok a) | .error e => done (.error e))
    split <;> trivial

theorem query (hrefl : ∀ s, R s s) (f : σ → Except ε α) : (Program.query f).Each R := by
  refine statement hrefl fun s a t h => ?_
  change (f s).map _ = _ at h
  cases hf : f s with
  | ok b =>
    rw [hf] at h
    cases h
    exact hrefl s
  | error e =>
    rw [hf] at h
    cases h

theorem update (hrefl : ∀ s, R s s) {f : σ → Except ε σ} (h : ∀ s t, f s = .ok t → R s t) :
    (Program.update f).Each R := by
  refine statement hrefl fun s a t heq => ?_
  change (f s).map _ = _ at heq
  cases hf : f s with
  | ok u =>
    rw [hf] at heq
    cases heq
    exact h s _ hf
  | error e =>
    rw [hf] at heq
    cases heq

/-- A preorder kept by every statement is kept by every run. -/
theorem relates {p : Program σ ε α} (hp : p.Each R) (hrefl : ∀ s, R s s)
    (htrans : ∀ s t u, R s t → R t u → R s u) : Relates R p := by
  induction p with
  | done r => exact fun s => hrefl s
  | next effect rest ih =>
    intro s
    exact htrans _ _ _ (hp s).1 (ih s (hp s).2 (effect s))

end Each

end Program

/-! ## Interleaved immediate transactions -/

namespace Transaction

variable {π σ ε α : Type}

/-- The process that holds the writer slot: the program it began, the copy it
works on, and what is left to execute. -/
structure Writer (π σ ε α : Type) where
  process : π
  begun : Program σ ε α
  copy : σ
  rest : Program σ ε α

/-- The committed state and the writer slot. -/
structure State (π σ ε α : Type) where
  committed : σ
  writer : Option (Writer π σ ε α)

/-- What a process can do to the database. -/
inductive Event (π σ ε α : Type) where
  | begin (process : π) (program : Program σ ε α)
  | advance
  | commit
  | abort

/-- `begin` waits for the writer slot, `commit` needs a returned program, and
`abort` (a raised error at any point, or the death of the process) discards the copy. -/
inductive Step : State π σ ε α → Event π σ ε α → State π σ ε α → Prop
  | begin (db : σ) (process : π) (program : Program σ ε α) :
      Step ⟨db, none⟩ (.begin process program) ⟨db, some ⟨process, program, db, program⟩⟩
  | advance (db : σ) (process : π) (program : Program σ ε α) (copy : σ) (effect : σ → σ)
      (rest : σ → Program σ ε α) :
      Step ⟨db, some ⟨process, program, copy, .next effect rest⟩⟩ .advance
        ⟨db, some ⟨process, program, effect copy, rest copy⟩⟩
  | commit (db : σ) (process : π) (program : Program σ ε α) (copy : σ) (a : α) :
      Step ⟨db, some ⟨process, program, copy, .done (.ok a)⟩⟩ .commit ⟨copy, none⟩
  | abort (db : σ) (w : Writer π σ ε α) : Step ⟨db, some w⟩ .abort ⟨db, none⟩

/-- The step that an event takes, when it is enabled. -/
def next (s : State π σ ε α) : Event π σ ε α → Option (State π σ ε α)
  | .begin process program => match s.writer with
    | none => some ⟨s.committed, some ⟨process, program, s.committed, program⟩⟩
    | some _ => none
  | .advance => match s.writer with
    | some ⟨process, program, copy, .next effect rest⟩ =>
      some ⟨s.committed, some ⟨process, program, effect copy, rest copy⟩⟩
    | _ => none
  | .commit => match s.writer with
    | some ⟨_, _, copy, .done (.ok _)⟩ => some ⟨copy, none⟩
    | _ => none
  | .abort => match s.writer with
    | some _ => some ⟨s.committed, none⟩
    | none => none

theorem step_of_next {s t : State π σ ε α} {e : Event π σ ε α} (h : next s e = some t) :
    Step s e t := by
  obtain ⟨db, writer⟩ := s
  cases e with
  | begin process program =>
    cases writer with
    | none =>
      cases h
      exact .begin db process program
    | some w => cases h
  | advance =>
    rcases writer with _ | ⟨process, program, copy, _ | ⟨effect, rest⟩⟩
    · cases h
    · cases h
    · cases h
      exact .advance db process program copy effect rest
  | commit =>
    rcases writer with _ | ⟨process, program, copy, (_ | a) | ⟨effect, rest⟩⟩
    · cases h
    · cases h
    · cases h
      exact .commit db process program copy a
    · cases h
  | abort =>
    cases writer with
    | none => cases h
    | some w =>
      cases h
      exact .abort db w

/-- The writer's copy and remaining program agree with running its whole program
on the committed state: nobody else has committed since it began. -/
def Serial (s : State π σ ε α) : Prop :=
  ∀ w, s.writer = some w → w.rest.run w.copy = w.begun.run s.committed

theorem Step.serial {s t : State π σ ε α} {e : Event π σ ε α} (h : Step s e t)
    (hs : Serial s) : Serial t := by
  cases h with
  | begin db process program =>
    rintro w ⟨⟩
    rfl
  | advance db process program copy effect rest =>
    rintro w ⟨⟩
    simpa only [Program.run_next] using hs _ rfl
  | commit => intro w hw; cases hw
  | abort => intro w hw; cases hw

/-- A commit publishes exactly the big-step result of the writer's whole program
on the state committed before it. -/
theorem Step.commit_run {s t : State π σ ε α} (h : Step s .commit t) (hs : Serial s) :
    ∃ w a, s.writer = some w ∧ w.begun.run s.committed = (.ok a, t.committed) := by
  cases h with
  | commit db process program copy a =>
    have hrun := hs _ rfl
    exact ⟨_, a, rfl, hrun.symm⟩

/-- Every other event, a raised error or a crash included, leaves the committed state alone. -/
theorem Step.committed_eq {s t : State π σ ε α} {e : Event π σ ε α} (h : Step s e t)
    (he : e ≠ .commit) : t.committed = s.committed := by
  cases h <;> first | rfl | exact absurd rfl he

/-- Only admitted programs are ever in the writer slot. -/
theorem Step.admitted {admitted : Program σ ε α → Prop} {s t : State π σ ε α} {e : Event π σ ε α}
    (h : Step s e t) (hbegin : ∀ process p, e = .begin process p → admitted p)
    (hw : ∀ w, s.writer = some w → admitted w.begun) :
    ∀ w, t.writer = some w → admitted w.begun := by
  cases h with
  | begin db process program =>
    rintro w ⟨⟩
    exact hbegin process program rfl
  | advance db process program copy effect rest =>
    rintro w ⟨⟩
    exact hw ⟨process, program, copy, .next effect rest⟩ rfl
  | commit => intro w hw; cases hw
  | abort => intro w hw; cases hw

/-- What is left of the writer's program keeps to the relation statement by statement. -/
theorem Step.each {R : σ → σ → Prop} {s t : State π σ ε α} {e : Event π σ ε α} (h : Step s e t)
    (hbegin : ∀ process p, e = .begin process p → p.Each R)
    (hw : ∀ w, s.writer = some w → w.rest.Each R) : ∀ w, t.writer = some w → w.rest.Each R := by
  cases h with
  | begin db process program =>
    rintro w ⟨⟩
    exact hbegin process program rfl
  | advance db process program copy effect rest =>
    rintro w ⟨⟩
    exact (hw _ rfl copy).2
  | commit => intro w hw; cases hw
  | abort => intro w hw; cases hw

/-- One statement of the writer relates its copy before and after. -/
theorem Step.advance_each {R : σ → σ → Prop} {s t : State π σ ε α} (h : Step s .advance t)
    (hw : ∀ w, s.writer = some w → w.rest.Each R) :
    ∃ w w', s.writer = some w ∧ t.writer = some w' ∧ w'.process = w.process ∧ w'.begun = w.begun ∧
      R w.copy w'.copy := by
  cases h with
  | advance db process program copy effect rest =>
    exact ⟨_, _, rfl, rfl, rfl, rfl, (hw _ rfl copy).1⟩

/-- An invariant kept by the big steps of the admitted programs holds of the
committed state of every interleaving of their statements. -/
theorem invariant {inv : σ → Prop} {admitted : Program σ ε α → Prop}
    (hrun : ∀ p db a db', admitted p → inv db → p.run db = (.ok a, db') → inv db')
    {s t : State π σ ε α} {trace : List (State π σ ε α × Event π σ ε α)}
    (h : Run Step s trace t) (hidle : s.writer = none)
    (hadmitted : ∀ x ∈ trace, ∀ process p, x.2 = .begin process p → admitted p)
    (hs : inv s.committed) :
    inv t.committed ∧ Serial t ∧ ∀ w, t.writer = some w → admitted w.begun := by
  have hstart : inv s.committed ∧ Serial s ∧ ∀ w, s.writer = some w → admitted w.begun := by
    refine ⟨hs, ?_, ?_⟩ <;> intro w hw <;> rw [hidle] at hw <;> cases hw
  refine h.invariant_of
    (fun s => inv s.committed ∧ Serial s ∧ ∀ w, s.writer = some w → admitted w.begun)
    (fun _ e => ∀ process p, e = Event.begin process p → admitted p) ?_ ?_ hstart
  · rintro s e t hc ⟨hinv, hserial, hadm⟩ hstep
    refine ⟨?_, hstep.serial hserial, hstep.admitted hc hadm⟩
    by_cases he : e = .commit
    · subst he
      obtain ⟨w, a, hw, hr⟩ := hstep.commit_run hserial
      exact hrun _ _ _ _ (hadm w hw) hinv hr
    · rw [hstep.committed_eq he]
      exact hinv
  · intro x hx
    exact hadmitted x hx

/-- A relation kept by the admitted programs relates every earlier committed state of a run to
the last one. -/
theorem relates {R : σ → σ → Prop} {admitted : Program σ ε α → Prop}
    (hrefl : ∀ s, R s s) (htrans : ∀ s t u, R s t → R t u → R s u)
    (hrun : ∀ p db a db', admitted p → p.run db = (.ok a, db') → R db db')
    {s t : State π σ ε α} {trace : List (State π σ ε α × Event π σ ε α)}
    (h : Run Step s trace t) (hs : Serial s) (hw : ∀ w, s.writer = some w → admitted w.begun)
    (hadmitted : ∀ x ∈ trace, ∀ process p, x.2 = .begin process p → admitted p) :
    R s.committed t.committed := by
  have hall := h.invariant_of
    (fun t => R s.committed t.committed ∧ Serial t ∧ ∀ w, t.writer = some w → admitted w.begun)
    (fun _ e => ∀ process p, e = Event.begin process p → admitted p) ?_ hadmitted
    ⟨hrefl _, hs, hw⟩
  · exact hall.1
  · rintro t e u hc ⟨hR, hserial, hadm⟩ hstep
    refine ⟨?_, hstep.serial hserial, hstep.admitted hc hadm⟩
    by_cases he : e = .commit
    · subst he
      obtain ⟨w, a, hw, hr⟩ := hstep.commit_run hserial
      exact htrans _ _ _ hR (hrun _ _ _ _ (hadm w hw) hr)
    · rw [hstep.committed_eq he]
      exact hR

/-- The transaction in progress began earlier in the run, on the state that is still committed. -/
theorem began {s t : State π σ ε α} {trace : List (State π σ ε α × Event π σ ε α)}
    (h : Run Step s trace t) (hidle : s.writer = none) {w : Writer π σ ε α}
    (hw : t.writer = some w) :
    ∃ b, (b, .begin w.process w.begun) ∈ trace ∧ b.committed = t.committed := by
  induction h generalizing w with
  | nil => rw [hidle] at hw; cases hw
  | @snoc t u trace e hrun hstep ih =>
    cases hstep with
    | begin db process program =>
      cases hw
      exact ⟨⟨db, none⟩, by simp, rfl⟩
    | advance db process program copy effect rest =>
      cases hw
      obtain ⟨b, hb, heq⟩ := ih rfl
      exact ⟨b, List.mem_append_left _ hb, heq⟩
    | commit => cases hw
    | abort => cases hw

/-- A program that raised can only be rolled back. -/
theorem Step.raised {s t : State π σ ε α} {e : Event π σ ε α} {w : Writer π σ ε α} {error : ε}
    (h : Step s e t) (hw : s.writer = some w) (hraised : w.rest = .done (.error error)) :
    e = .abort := by
  cases h with
  | begin => cases hw
  | advance => cases hw; cases hraised
  | commit => cases hw; cases hraised
  | abort => rfl

/-- A program that returns can be executed without interruption, up to its commit. -/
theorem ready (process : π) {p : Program σ ε α} {db db' : σ} {a : α} (h : p.run db = (.ok a, db')) :
    ∃ trace, Run Step (⟨db, none⟩ : State π σ ε α) trace ⟨db, some ⟨process, p, db', .done (.ok a)⟩⟩ ∧
      ∀ x ∈ trace, ∀ process' q, x.2 = .begin process' q → q = p := by
  have hrest : ∀ (rest : Program σ ε α) (copy : σ), rest.run copy = (.ok a, db') →
      ∃ trace, Run Step (⟨db, some ⟨process, p, copy, rest⟩⟩ : State π σ ε α) trace
          ⟨db, some ⟨process, p, db', .done (.ok a)⟩⟩ ∧
        ∀ x ∈ trace, ∀ process' q, x.2 = .begin process' q → q = p := by
    intro rest
    induction rest with
    | done r =>
      rintro copy hr
      cases hr
      exact ⟨[], Run.nil _, by simp⟩
    | next effect rest ih =>
      intro copy hr
      obtain ⟨trace, hrun, hb⟩ := ih copy (effect copy) hr
      refine ⟨_, Run.cons (.advance db process p copy effect rest) hrun, ?_⟩
      intro x hx process' q hq
      rcases List.mem_cons.mp hx with rfl | hx
      · cases hq
      · exact hb x hx process' q hq
  obtain ⟨trace, hrun, hb⟩ := hrest p db h
  refine ⟨_, Run.cons (.begin db process p) hrun, ?_⟩
  intro x hx process' q hq
  rcases List.mem_cons.mp hx with rfl | hx
  · cases hq
    rfl
  · exact hb x hx process' q hq

/-- A program that returns can be executed and committed without interruption. -/
theorem whole (process : π) {p : Program σ ε α} {db db' : σ} {a : α}
    (h : p.run db = (.ok a, db')) :
    ∃ trace, Run Step (⟨db, none⟩ : State π σ ε α) trace ⟨db', none⟩ ∧
      ∀ x ∈ trace, ∀ process' q, x.2 = .begin process' q → q = p := by
  obtain ⟨trace, hrun, hb⟩ := ready process h
  refine ⟨_, Run.snoc hrun (.commit db process p db' a), ?_⟩
  intro x hx process' q hq
  rcases List.mem_append.mp hx with hx | hx
  · exact hb x hx process' q hq
  · obtain rfl := List.mem_singleton.mp hx
    cases hq

end Transaction

end Pine
