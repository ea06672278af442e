import Mathlib.Data.List.Basic
import Mathlib.Logic.Relation

/-!
# Labelled runs of a transition relation

A run keeps, for every step, the state it left and the label it carried, so a
side condition on a step can be read back from the trace. Invariants are proved
once for a step and lifted here to whole runs.
-/

namespace Pine

variable {σ ε : Type*}

/-- A finite run; its trace lists the source state and label of each step. -/
inductive Run (step : σ → ε → σ → Prop) : σ → List (σ × ε) → σ → Prop
  | nil (s : σ) : Run step s [] s
  | snoc {s t u : σ} {trace : List (σ × ε)} {e : ε} :
      Run step s trace t → step t e u → Run step s (trace ++ [(t, e)]) u

/-- Some run leads from `s` to `t`. -/
def Leads (step : σ → ε → σ → Prop) (s t : σ) : Prop := ∃ trace, Run step s trace t

namespace Run

variable {step : σ → ε → σ → Prop}

/-- One step is a run. -/
theorem single {s t : σ} {e : ε} (h : step s e t) : Run step s [(s, e)] t :=
  snoc (nil s) h

/-- Runs compose, and their traces concatenate. -/
theorem append {s t u : σ} {before after : List (σ × ε)} (h : Run step s before t)
    (k : Run step t after u) : Run step s (before ++ after) u := by
  induction k with
  | nil => simpa only [List.append_nil] using h
  | snoc _ hs ih =>
    rw [← List.append_assoc]
    exact snoc ih hs

/-- A step in front of a run. -/
theorem cons {s t u : σ} {e : ε} {trace : List (σ × ε)} (h : step s e t)
    (k : Run step t trace u) : Run step s ((s, e) :: trace) u :=
  (single h).append k

/-- An invariant kept by every step whose label meets `cond` holds at the end of
every run all of whose steps meet it. -/
theorem invariant_of (inv : σ → Prop) (cond : σ → ε → Prop)
    (hstep : ∀ s e t, cond s e → inv s → step s e t → inv t)
    {s t : σ} {trace : List (σ × ε)} (h : Run step s trace t)
    (hcond : ∀ x ∈ trace, cond x.1 x.2) (hs : inv s) : inv t := by
  induction h with
  | nil => exact hs
  | @snoc t u trace e _ hlast ih =>
    have hbefore := ih (fun x hx => hcond x (List.mem_append_left _ hx))
    exact hstep t e u (hcond (t, e) (by simp)) hbefore hlast

/-- An invariant kept by every step holds at the end of every run. -/
theorem invariant (inv : σ → Prop) (hstep : ∀ s e t, inv s → step s e t → inv t)
    {s t : σ} {trace : List (σ × ε)} (h : Run step s trace t) (hs : inv s) : inv t :=
  h.invariant_of inv (fun _ _ => True) (fun s e t _ => hstep s e t) (fun _ _ => trivial) hs

/-- Every step of a run leaves a state that the run reaches from its start. -/
theorem leads_of_mem {s t : σ} {trace : List (σ × ε)} (h : Run step s trace t)
    {x : σ × ε} (hx : x ∈ trace) : Leads step s x.1 := by
  induction h with
  | nil => simp at hx
  | @snoc t u trace e hrun _ ih =>
    rcases List.mem_append.mp hx with hx | hx
    · exact ih hx
    · obtain rfl := List.mem_singleton.mp hx
      exact ⟨trace, hrun⟩

/-- A run splits at each of its steps. -/
theorem split_of_mem {s t : σ} {trace : List (σ × ε)} (h : Run step s trace t)
    {x : σ × ε} (hx : x ∈ trace) :
    ∃ before after, Run step s before x.1 ∧ Run step x.1 after t ∧ trace = before ++ after := by
  induction h with
  | nil => simp at hx
  | @snoc t u trace e hrun hlast ih =>
    rcases List.mem_append.mp hx with hx | hx
    · obtain ⟨before, after, hb, ha, heq⟩ := ih hx
      exact ⟨before, after ++ [(t, e)], hb, snoc ha hlast, by rw [heq, List.append_assoc]⟩
    · obtain rfl := List.mem_singleton.mp hx
      exact ⟨trace, [(t, e)], hrun, single hlast, rfl⟩

/-- The step behind each entry of a trace, with the runs before and after it. -/
theorem step_of_mem {s t : σ} {trace : List (σ × ε)} (h : Run step s trace t)
    {x : σ × ε} (hx : x ∈ trace) :
    ∃ before u after, Run step s before x.1 ∧ step x.1 x.2 u ∧ Run step u after t ∧
      trace = before ++ x :: after := by
  induction h with
  | nil => simp at hx
  | @snoc t u trace e hrun hlast ih =>
    rcases List.mem_append.mp hx with hx | hx
    · obtain ⟨before, v, after, hb, hs, ha, heq⟩ := ih hx
      exact ⟨before, v, after ++ [(t, e)], hb, hs, snoc ha hlast, by rw [heq]; simp⟩
    · obtain rfl := List.mem_singleton.mp hx
      exact ⟨trace, u, [], hrun, hlast, Run.nil u, rfl⟩

/-- A run passes through every entry of its trace. -/
theorem split_at {s t : σ} {before after : List (σ × ε)} {x : σ × ε}
    (h : Run step s (before ++ x :: after) t) :
    ∃ u, Run step s before x.1 ∧ step x.1 x.2 u ∧ Run step u after t := by
  generalize htrace : before ++ x :: after = trace at h
  induction h generalizing after with
  | nil => simp at htrace
  | @snoc t u trace e hrun hlast ih =>
    rcases List.eq_nil_or_concat after with rfl | ⟨rest, last, rfl⟩
    · obtain ⟨rfl, hx⟩ := List.append_inj' htrace rfl
      obtain rfl := List.singleton_inj.mp hx
      exact ⟨u, hrun, hlast, nil u⟩
    · rw [List.concat_eq_append, ← List.cons_append, ← List.append_assoc] at htrace
      obtain ⟨hbefore, hx⟩ := List.append_inj' htrace rfl
      obtain rfl := List.singleton_inj.mp hx
      obtain ⟨v, hfirst, hstep, hrest⟩ := ih hbefore
      refine ⟨v, hfirst, hstep, ?_⟩
      rw [List.concat_eq_append]
      exact snoc hrest hlast

/-- A run starts at the source of its first step, or it has none and ends where it starts. -/
theorem start_visited {s t : σ} {trace : List (σ × ε)} (h : Run step s trace t) :
    s = t ∨ ∃ x ∈ trace, x.1 = s := by
  induction h with
  | nil => exact Or.inl rfl
  | @snoc t u trace e hrun hlast ih =>
    rcases ih with rfl | ⟨x, hx, rfl⟩
    · exact Or.inr ⟨(s, e), by simp, rfl⟩
    · exact Or.inr ⟨x, List.mem_append_left _ hx, rfl⟩

end Run

/-- Take the given steps in order, if every one of them is enabled. -/
def follow (next : σ → ε → Option σ) (s : σ) : List ε → Option σ
  | [] => some s
  | e :: rest => (next s e).bind fun t => follow next t rest

/-- Steps that are enabled in order are a run. -/
theorem Run.of_follow {next : σ → ε → Option σ} {events : List ε} {s t : σ}
    (h : follow next s events = some t) :
    ∃ trace, Run (fun u e v => next u e = some v) s trace t ∧ trace.map Prod.snd = events := by
  induction events generalizing s with
  | nil =>
    cases h
    exact ⟨[], Run.nil _, rfl⟩
  | cons e rest ih =>
    obtain ⟨u, hstep, hrest⟩ := Option.bind_eq_some_iff.mp h
    obtain ⟨trace, hrun, hevents⟩ := ih hrest
    exact ⟨_, Run.cons hstep hrun, by rw [List.map_cons, hevents]⟩

/-! ## What is still going on -/

/-- Some event begins what no later event ends. -/
def Since (begins ends : ε → Prop) (events : List ε) : Prop :=
  ∃ before e after, events = before ++ e :: after ∧ begins e ∧ ∀ x ∈ after, ¬ ends x

theorem not_since_nil {begins ends : ε → Prop} : ¬ Since begins ends [] := by
  rintro ⟨before, e, after, h, -⟩
  simp at h

/-- What goes on after one more event was begun by it, or went on before and is not ended by it. -/
theorem since_snoc {begins ends : ε → Prop} {events : List ε} {e : ε} :
    Since begins ends (events ++ [e]) ↔ begins e ∨ Since begins ends events ∧ ¬ ends e := by
  constructor
  · rintro ⟨before, x, after, heq, hbegins, hafter⟩
    rcases List.eq_nil_or_concat after with rfl | ⟨rest, last, rfl⟩
    · obtain ⟨-, hx⟩ := List.append_inj' heq rfl
      obtain rfl := List.singleton_inj.mp hx
      exact Or.inl hbegins
    · rw [List.concat_eq_append, ← List.cons_append, ← List.append_assoc] at heq
      obtain ⟨rfl, hx⟩ := List.append_inj' heq rfl
      obtain rfl := List.singleton_inj.mp hx
      rw [List.concat_eq_append] at hafter
      exact Or.inr ⟨⟨before, x, rest, rfl, hbegins, fun y hy =>
        hafter y (List.mem_append_left _ hy)⟩, hafter e (by simp)⟩
  · rintro (hbegins | ⟨⟨before, x, after, rfl, hbegins, hafter⟩, hends⟩)
    · exact ⟨events, e, [], rfl, hbegins, by simp⟩
    · refine ⟨before, x, after ++ [e], by simp, hbegins, fun y hy => ?_⟩
      rcases List.mem_append.mp hy with hy | hy
      · exact hafter y hy
      · obtain rfl := List.mem_singleton.mp hy
        exact hends

/-- A run of a smaller relation. -/
theorem Run.mono {step step' : σ → ε → σ → Prop} (hstep : ∀ s e t, step s e t → step' s e t)
    {s t : σ} {trace : List (σ × ε)} (h : Run step s trace t) : Run step' s trace t := by
  induction h with
  | nil => exact Run.nil _
  | snoc _ hlast ih => exact Run.snoc ih (hstep _ _ _ hlast)

/-- A run is followed by a run of another relation: a step with a label there is a step, and any other
step changes nothing that is seen there. -/
theorem Run.simulate {σ' ε' : Type*} {step : σ → ε → σ → Prop} {step' : σ' → ε' → σ' → Prop}
    (see : σ → σ') (label : σ → ε → Option ε') (inv : σ → Prop)
    (hinv : ∀ s e t, inv s → step s e t → inv t)
    (hstep : ∀ s e t, inv s → step s e t → (label s e = none ∧ see t = see s) ∨
      ∃ e', label s e = some e' ∧ step' (see s) e' (see t))
    {s t : σ} {trace : List (σ × ε)} (h : Run step s trace t) (hs : inv s) :
    Run step' (see s) (trace.filterMap fun x => (label x.1 x.2).map (see x.1, ·)) (see t) := by
  induction h with
  | nil => exact Run.nil _
  | @snoc t u trace e hrun hlast ih =>
    have hbefore := hrun.invariant inv hinv hs
    rw [List.filterMap_append]
    rcases hstep t e u hbefore hlast with ⟨hlabel, hsee⟩ | ⟨e', hlabel, hnext⟩
    · simpa [hlabel, hsee] using ih
    · simpa [hlabel] using ih.snoc hnext

namespace Leads

variable {step : σ → ε → σ → Prop}

@[refl] theorem refl (s : σ) : Leads step s s := ⟨[], Run.nil s⟩

@[trans] theorem trans {s t u : σ} : Leads step s t → Leads step t u → Leads step s u
  | ⟨before, h⟩, ⟨after, k⟩ => ⟨before ++ after, h.append k⟩

theorem snoc {s t u : σ} {e : ε} (h : Leads step s t) (k : step t e u) : Leads step s u :=
  h.trans ⟨_, Run.single k⟩

/-- Step preservation lifts to every state the system leads to. -/
theorem invariant (inv : σ → Prop) (hstep : ∀ s e t, inv s → step s e t → inv t)
    {s t : σ} (h : Leads step s t) (hs : inv s) : inv t := by
  obtain ⟨_, hrun⟩ := h
  exact hrun.invariant inv hstep hs

end Leads

end Pine
