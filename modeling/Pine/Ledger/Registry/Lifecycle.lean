import Pine.Core.Sql
import Pine.Ledger.Registry.StartedTouched

/-!
# The lifecycle of runs under arbitrary updates

The triggers and constraints of `runs` against every UPDATE, whatever values it gives to
its columns. A condition with a NULL operand is unknown, and then the trigger does not
fire: a running row may lose its execution time when it is finished. Nothing else but
the legal transitions gets through, and the statements of the ledger always do.
-/

namespace Pine

def RunState.value : RunState → Text
  | .registered => text "registered"
  | .running => text "running"
  | .completed => text "completed"
  | .failed => text "failed"

/-- A row of `runs`, whatever its columns hold. -/
structure RawRunRow where
  run_id : SqlValue
  prediction_id : SqlValue
  started_at : SqlValue
  state : SqlValue
  execution_started_at : SqlValue
  completed_at : SqlValue
  exit_code : SqlValue
  failure_note : SqlValue
  deriving DecidableEq

/-- The columns of `runs` that an UPDATE sets, with any values. -/
structure RawRunUpdate where
  run_id : Option SqlValue := none
  prediction_id : Option SqlValue := none
  started_at : Option SqlValue := none
  state : Option SqlValue := none
  execution_started_at : Option SqlValue := none
  completed_at : Option SqlValue := none
  exit_code : Option SqlValue := none
  failure_note : Option SqlValue := none

namespace RawRunUpdate

/-- `runs.exit_code` is an INTEGER column, the others are TEXT columns. -/
def apply (numerals : SqlNumerals) (u : RawRunUpdate) (r : RawRunRow) : RawRunRow where
  run_id := (u.run_id.map (·.toText numerals)).getD r.run_id
  prediction_id := (u.prediction_id.map (·.toText numerals)).getD r.prediction_id
  started_at := (u.started_at.map (·.toText numerals)).getD r.started_at
  state := (u.state.map (·.toText numerals)).getD r.state
  execution_started_at := (u.execution_started_at.map (·.toText numerals)).getD r.execution_started_at
  completed_at := (u.completed_at.map (·.toText numerals)).getD r.completed_at
  exit_code := (u.exit_code.map (·.toInteger numerals)).getD r.exit_code
  failure_note := (u.failure_note.map (·.toText numerals)).getD r.failure_note

/-- The trigger `runs_identity_write_once_update` watches these columns. -/
def namesIdentity (u : RawRunUpdate) : Bool :=
  u.run_id.isSome || u.prediction_id.isSome || u.started_at.isSome

end RawRunUpdate

namespace RawRunRow

/-- `state = '...'` -/
def isState (r : RawRunRow) (state : RunState) : Truth := r.state.equal (.text state.value)

/-- The condition that `runs_lifecycle_transitions` negates. -/
def lifecycleTransition (old new : RawRunRow) : Truth :=
  .or
    (.all [old.isState .registered, new.isState .running, .known old.execution_started_at.isNull,
      .known !new.execution_started_at.isNull, .known new.completed_at.isNull,
      .known new.exit_code.isNull, .known new.failure_note.isNull])
    (.all [old.isState .running, .or (new.isState .completed) (new.isState .failed),
      new.execution_started_at.equal old.execution_started_at, .known !new.completed_at.isNull,
      .known !new.exit_code.isNull,
      .or
        (.all [new.isState .completed, new.exit_code.equal .zero, .known new.failure_note.isNull])
        (.all [new.isState .failed,
          .or (Truth.not (new.exit_code.equal .zero)) (.known !new.failure_note.isNull)])])

/-- `state IN ('registered', 'running', 'completed', 'failed')` -/
def stateCheck (r : RawRunRow) : Truth :=
  .or (.or (.or (r.isState .registered) (r.isState .running)) (r.isState .completed))
    (r.isState .failed)

end RawRunRow

/-- The triggers of `runs` before an update of a row, and then the constraints of its columns. No
update that gets through names a column of a key. -/
def RawRunUpdate.check (u : RawRunUpdate) (old new : RawRunRow) : Except Error Unit :=
  Registry.enforce [
    (u.namesIdentity, "run identity is write-once"),
    ((old.lifecycleTransition new).not.holds, "invalid run lifecycle transition"),
    (new.started_at.isNull, "NOT NULL constraint failed: runs.started_at"),
    (new.state.isNull, "NOT NULL constraint failed: runs.state"),
    (new.stateCheck.not.holds,
      "CHECK constraint failed: state IN ('registered', 'running', 'completed', 'failed')")]

/-- An UPDATE statement: the rows that it selects, and what it sets in each of them. -/
structure RunsStatement where
  selects : RawRunRow → Bool
  sets : RawRunRow → RawRunUpdate

/-- `UPDATE runs SET ... WHERE ...` -/
def RunsStatement.execute (numerals : SqlNumerals) (statement : RunsStatement) :
    List RawRunRow → Except Error (List RawRunRow) :=
  Registry.updateRows statement.selects (fun r => (statement.sets r).apply numerals r)
    fun old new => (statement.sets old).check old new

/-! ## The rows of the ledger -/

/-- A nullable text. -/
def SqlValue.ofText : Option Text → SqlValue
  | some s => .text s
  | none => .null

/-- A nullable integer. -/
def SqlValue.ofInteger : Option Int → SqlValue
  | some n => .number (.integer n)
  | none => .null

/-- A row of the ledger, as the columns hold it. -/
def RunRow.raw (r : RunRow) : RawRunRow where
  run_id := .text r.run_id
  prediction_id := .ofText r.prediction_id
  started_at := .text r.started_at
  state := .text r.state.value
  execution_started_at := .ofText r.execution_started_at
  completed_at := .ofText r.completed_at
  exit_code := .ofInteger r.exit_code
  failure_note := .ofText r.failure_note

/-- An update of the ledger, as the statement binds it. -/
def RunUpdate.raw (u : RunUpdate) : RawRunUpdate where
  run_id := u.run_id.map .text
  prediction_id := u.prediction_id.map .ofText
  started_at := u.started_at.map .text
  state := u.state.map fun state => .text state.value
  execution_started_at := u.execution_started_at.map .ofText
  completed_at := u.completed_at.map .ofText
  exit_code := u.exit_code.map .ofInteger
  failure_note := u.failure_note.map .ofText

variable {numerals : SqlNumerals}

@[simp] theorem SqlValue.isNull_ofText (s : Option Text) : (SqlValue.ofText s).isNull = s.isNone := by
  cases s <;> rfl

@[simp] theorem SqlValue.isNull_ofInteger (n : Option Int) :
    (SqlValue.ofInteger n).isNull = n.isNone := by
  cases n <;> rfl

@[simp] theorem SqlValue.ofText_equal (s t : Option Text) :
    (SqlValue.ofText s).equal (SqlValue.ofText t) = Truth.equal s t := by
  cases s <;> cases t <;> simp [SqlValue.ofText, SqlValue.equal, Truth.equal, beq_eq_decide]

@[simp] theorem SqlValue.ofInteger_equal_zero (n : Option Int) :
    (SqlValue.ofInteger n).equal .zero = Truth.equal n (some 0) := by
  cases n <;>
    simp [SqlValue.ofInteger, SqlValue.zero, SqlValue.equal, SqlNumber.same, Truth.equal,
      beq_eq_decide]

theorem RunState.value_inj {a b : RunState} (h : a.value = b.value) : a = b := by
  cases a <;> cases b <;> first | rfl | exact absurd h (by decide)

@[simp] theorem RunRow.raw_isState (r : RunRow) (state : RunState) :
    r.raw.isState state = .known (r.state == state) := by
  have hiff : (r.state.value == state.value) = (r.state == state) := by
    rw [Bool.eq_iff_iff, beq_iff_eq, beq_iff_eq]
    exact ⟨RunState.value_inj, congrArg RunState.value⟩
  simp [RawRunRow.isState, RunRow.raw, SqlValue.equal, Truth.known, hiff]

/-- On rows of the ledger, columns of any values behave as the typed ones. -/
theorem RunRow.raw_lifecycleTransition (old new : RunRow) :
    old.raw.lifecycleTransition new.raw = Registry.lifecycleTransition old new := by
  have hterminal : Truth.or (.known (new.state == .completed)) (.known (new.state == .failed)) =
      .known new.state.isTerminal := by
    cases new.state <;> rfl
  have hsome : ∀ s : Option Text, (!s.isNone) = s.isSome := fun s => by cases s <;> rfl
  have hinteger : ∀ n : Option Int, (!n.isNone) = n.isSome := fun n => by cases n <;> rfl
  simp only [RawRunRow.lifecycleTransition, Registry.lifecycleTransition, raw_isState, hterminal]
  simp only [RunRow.raw, SqlValue.isNull_ofText, SqlValue.isNull_ofInteger, SqlValue.ofText_equal,
    SqlValue.ofInteger_equal_zero, hsome, hinteger]

theorem RunUpdate.raw_apply (u : RunUpdate) (r : RunRow) :
    u.raw.apply numerals r.raw = (u.apply r).raw := by
  have htext : ∀ s : Option Text, (SqlValue.ofText s).toText numerals = .ofText s :=
    fun s => by cases s <;> rfl
  have hinteger : ∀ n : Option Int, (SqlValue.ofInteger n).toInteger numerals = .ofInteger n :=
    fun n => by cases n <;> rfl
  simp only [RawRunUpdate.apply, RunUpdate.raw, RunRow.raw, RunUpdate.apply, Option.map_map,
    Function.comp_def, htext, hinteger, RawRunRow.mk.injEq]
  refine ⟨?_, ?_, ?_, ?_, ?_, ?_, ?_, ?_⟩
  · cases u.run_id <;> rfl
  · cases u.prediction_id <;> rfl
  · cases u.started_at <;> rfl
  · cases u.state <;> rfl
  · cases u.execution_started_at <;> rfl
  · cases u.completed_at <;> rfl
  · cases u.exit_code <;> rfl
  · cases u.failure_note <;> rfl

theorem RunUpdate.raw_namesIdentity (u : RunUpdate) : u.raw.namesIdentity = u.namesIdentity := by
  simp [RawRunUpdate.namesIdentity, RunUpdate.raw, RunUpdate.namesIdentity]

/-- An update of the ledger meets the same triggers, and no constraint of a column. -/
theorem RunUpdate.raw_check (u : RunUpdate) (r : RunRow) :
    u.raw.check r.raw (u.raw.apply numerals r.raw) = .ok () ↔
      Registry.runTriggers u r (u.apply r) = .ok () := by
  have hstate : ∀ new : RunRow, new.raw.stateCheck.not.holds = false := by
    intro new
    simp only [RawRunRow.stateCheck, RunRow.raw_isState]
    cases new.state <;> rfl
  have hthere : ∀ new : RunRow, new.raw.started_at.isNull = false ∧ new.raw.state.isNull = false :=
    fun _ => ⟨rfl, rfl⟩
  rw [u.raw_apply, RawRunUpdate.check, Registry.runTriggers, Registry.enforce_ok, Registry.enforce_ok,
    u.raw_namesIdentity, RunRow.raw_lifecycleTransition]
  simp [hstate, hthere]

/-! ## What gets through -/

namespace RawRunRow

/-- A run is started. -/
structure Starts (old new : RawRunRow) : Prop where
  registered : old.state = .text RunState.registered.value
  running : new.state = .text RunState.running.value
  execution_started_at : new.execution_started_at ≠ .null
  completed_at : new.completed_at = .null
  exit_code : new.exit_code = .null
  failure_note : new.failure_note = .null

/-- The exit code and the failure note of a terminal row agree with its state. -/
def Outcome (new : RawRunRow) : Prop :=
  (new.state = .text RunState.completed.value ∧ new.exit_code = .zero ∧ new.failure_note = .null) ∨
    (new.state = .text RunState.failed.value ∧ (new.exit_code ≠ .zero ∨ new.failure_note ≠ .null))

/-- A run is finished, whatever becomes of its execution time. -/
structure Finishes (old new : RawRunRow) : Prop where
  running : old.state = .text RunState.running.value
  completed_at : new.completed_at ≠ .null
  exit_code : new.exit_code ≠ .null
  outcome : new.Outcome

/-- A legal transition: the identity is kept, and a run is started, or finished with the execution
time that it had. -/
structure Legal (old new : RawRunRow) : Prop where
  run_id : new.run_id = old.run_id
  prediction_id : new.prediction_id = old.prediction_id
  started_at : new.started_at = old.started_at
  transition : old.Starts new ∨
    (old.Finishes new ∧ new.execution_started_at = old.execution_started_at)

/-- What holds of every row that the ledger inserted, whatever updates it went through. -/
structure Lawful (r : RawRunRow) : Prop where
  started_at : r.started_at ≠ .null
  state : ∃ state : RunState, r.state = .text state.value
  execution_column : ∀ x, r.execution_started_at ≠ .number x
  exit_column : r.exit_code.equal .zero = some true ↔ r.exit_code = .zero
  registered : r.state = .text RunState.registered.value → r.execution_started_at = .null ∧
    r.completed_at = .null ∧ r.exit_code = .null ∧ r.failure_note = .null
  running : r.state = .text RunState.running.value → r.execution_started_at ≠ .null

theorem isState_eq_true {r : RawRunRow} {state : RunState} :
    r.isState state = some true ↔ r.state = .text state.value :=
  SqlValue.equal_text

/-- The state of a row that is not NULL is known. -/
theorem isState_eq_false {r : RawRunRow} {state : RunState} (h : r.state ≠ .null) :
    r.isState state = some false ↔ r.state ≠ .text state.value := by
  rw [Ne, ← isState_eq_true, isState]
  cases hequal : r.state.equal (.text state.value) with
  | none => exact absurd ((SqlValue.equal_eq_none (b := .text state.value) nofun).mp hequal) h
  | some known => cases known <;> simp

/-- The outcome of a terminal row, as the trigger compares it. -/
def outcomeTruth (new : RawRunRow) : Truth :=
  .or
    (.all [new.isState .completed, new.exit_code.equal .zero, .known new.failure_note.isNull])
    (.all [new.isState .failed,
      .or (Truth.not (new.exit_code.equal .zero)) (.known !new.failure_note.isNull)])

/-- With a state and an exit code the outcome is known. -/
theorem outcomeTruth_ne_false {new : RawRunRow} (hstate : new.state ≠ .null)
    (hexit : new.exit_code ≠ .null)
    (hzero : new.exit_code.equal .zero = some true ↔ new.exit_code = .zero) :
    new.outcomeTruth ≠ some false ↔ new.Outcome := by
  have hknown : new.exit_code.equal .zero = some false ↔ new.exit_code ≠ .zero := by
    rw [Ne, ← hzero]
    cases hequal : new.exit_code.equal .zero with
    | none => exact absurd ((SqlValue.equal_eq_none (b := .zero) nofun).mp hequal) hexit
    | some known => cases known <;> simp
  have hnot : Truth.not (new.exit_code.equal .zero) = some false ↔ new.exit_code = .zero := by
    rw [← hzero]
    cases new.exit_code.equal .zero <;> simp [Truth.not]
  rw [outcomeTruth, Ne, Truth.or_eq_false, not_and_or, Truth.all_eq_false, Truth.all_eq_false]
  simp only [List.mem_cons, List.not_mem_nil, or_false, not_or, eq_comm (a := some false),
    isState_eq_false hstate, hknown, Truth.or_eq_false, hnot, Truth.known_eq_false, Bool.not_eq_false,
    Bool.not_eq_false', SqlValue.isNull_iff, ne_eq, not_not, Outcome, not_and_or]

/-- What the lifecycle trigger lets through: legal transitions, and finished runs that lost their
execution time. -/
theorem lifecycleTransition_ne_false {old new : RawRunRow} (hold : old.Lawful)
    (hstate : new.state ≠ .null) (hcolumn : ∀ x, new.execution_started_at ≠ .number x)
    (hzero : new.exit_code.equal .zero = some true ↔ new.exit_code = .zero) :
    old.lifecycleTransition new ≠ some false ↔ old.Starts new ∨ (old.Finishes new ∧
      (new.execution_started_at = old.execution_started_at ∨ new.execution_started_at = .null)) := by
  obtain ⟨oldState, holdState⟩ := hold.state
  have holdNull : old.state ≠ .null := by
    rw [holdState]
    nofun
  have hequal : old.state = .text RunState.running.value →
      (new.execution_started_at.equal old.execution_started_at ≠ some false ↔
        new.execution_started_at = old.execution_started_at ∨ new.execution_started_at = .null) := by
    intro hrunning
    have hset := hold.running hrunning
    have holdColumn := hold.execution_column
    revert hset hcolumn holdColumn
    cases new.execution_started_at <;> cases old.execution_started_at <;> simp [SqlValue.equal]
  have hin : new.Outcome → Truth.or (new.isState .completed) (new.isState .failed) ≠ some false := by
    rintro (⟨hcompleted, -⟩ | ⟨hfailed, -⟩)
    · rw [Ne, Truth.or_eq_false, isState_eq_true.mpr hcompleted]
      simp
    · rw [Ne, Truth.or_eq_false, isState_eq_true.mpr hfailed]
      simp
  change Truth.or _ (.all [_, _, _, _, _, new.outcomeTruth]) ≠ some false ↔ _
  rw [Ne, Truth.or_eq_false, not_and_or, Truth.all_eq_false, Truth.all_eq_false]
  simp only [List.mem_cons, List.not_mem_nil, or_false, not_or, eq_comm (a := some false),
    isState_eq_false holdNull, isState_eq_false hstate, Truth.known_eq_false, Bool.not_eq_false',
    SqlValue.isNull_iff, SqlValue.isNull_eq_false, ne_eq, not_not]
  refine or_congr ?_ ?_
  · constructor
    · rintro ⟨hregistered, hrunning, -, hexecution, hcompleted, hexit, hnote⟩
      exact ⟨hregistered, hrunning, hexecution, hcompleted, hexit, hnote⟩
    · rintro ⟨hregistered, hrunning, hexecution, hcompleted, hexit, hnote⟩
      exact ⟨hregistered, hrunning, (hold.registered hregistered).1, hexecution, hcompleted, hexit,
        hnote⟩
  · constructor
    · rintro ⟨hrunning, -, hsame, hcompleted, hexit, houtcome⟩
      exact ⟨⟨hrunning, hcompleted, hexit, (outcomeTruth_ne_false hstate hexit hzero).mp houtcome⟩,
        (hequal hrunning).mp hsame⟩
    · rintro ⟨⟨hrunning, hcompleted, hexit, houtcome⟩, hsame⟩
      exact ⟨hrunning, hin houtcome, (hequal hrunning).mpr hsame, hcompleted, hexit,
        (outcomeTruth_ne_false hstate hexit hzero).mpr houtcome⟩

/-- A started or finished row has one of the states. -/
theorem stateCheck_of {new : RawRunRow} {state : RunState} (h : new.state = .text state.value) :
    new.stateCheck.not.holds = false := by
  have hknown : ∀ other, new.isState other = .known (state == other) := by
    intro other
    rw [isState, h]
    cases state <;> cases other <;> decide
  rw [stateCheck, hknown, hknown, hknown, hknown]
  cases state <;> rfl

variable {old : RawRunRow} {u : RawRunUpdate}

/-- A column keeps what it stores. -/
theorem Lawful.columns (numerals : SqlNumerals) (hold : old.Lawful) (u : RawRunUpdate) :
    (∀ x, (u.apply numerals old).execution_started_at ≠ .number x) ∧
      ((u.apply numerals old).exit_code.equal .zero = some true ↔
        (u.apply numerals old).exit_code = .zero) := by
  constructor
  · intro x
    simp only [RawRunUpdate.apply]
    cases u.execution_started_at with
    | none => exact hold.execution_column x
    | some value => cases value <;> simp [SqlValue.toText]
  · simp only [RawRunUpdate.apply]
    cases u.exit_code with
    | none => exact hold.exit_column
    | some value => exact SqlValue.toInteger_equal_zero numerals value

/-- What the triggers and constraints let through. -/
theorem check_ok (hold : old.Lawful) : u.check old (u.apply numerals old) = .ok () ↔
    u.namesIdentity = false ∧ (old.Starts (u.apply numerals old) ∨
      (old.Finishes (u.apply numerals old) ∧
        ((u.apply numerals old).execution_started_at = old.execution_started_at ∨
          (u.apply numerals old).execution_started_at = .null))) := by
  obtain ⟨hcolumn, hzero⟩ := hold.columns numerals u
  rw [RawRunUpdate.check, Registry.enforce_ok]
  simp only [List.forall_mem_cons, List.not_mem_nil, IsEmpty.forall_iff, implies_true, and_true,
    Truth.holds_not, SqlValue.isNull_eq_false]
  constructor
  · rintro ⟨hidentity, hlifecycle, -, hstate, -⟩
    exact ⟨hidentity, (lifecycleTransition_ne_false hold hstate hcolumn hzero).mp hlifecycle⟩
  · rintro ⟨hidentity, h⟩
    have hstate : ∃ state : RunState, (u.apply numerals old).state = .text state.value := by
      rcases h with hstarts | ⟨hfinishes, -⟩
      · exact ⟨_, hstarts.running⟩
      · rcases hfinishes.outcome with ⟨hcompleted, -⟩ | ⟨hfailed, -⟩
        · exact ⟨_, hcompleted⟩
        · exact ⟨_, hfailed⟩
    obtain ⟨state, hstate⟩ := hstate
    have hnull : (u.apply numerals old).state ≠ .null := by
      rw [hstate]
      nofun
    have hstarted : (u.apply numerals old).started_at = old.started_at := by
      simp only [RawRunUpdate.namesIdentity, Bool.or_eq_false_iff, Option.isSome_eq_false_iff,
        Option.isNone_iff_eq_none] at hidentity
      simp [RawRunUpdate.apply, hidentity.2]
    refine ⟨hidentity, (lifecycleTransition_ne_false hold hnull hcolumn hzero).mpr h, ?_, hnull, ?_⟩
    · rw [hstarted]
      exact hold.started_at
    · exact (Truth.holds_not _).mp (stateCheck_of hstate)

/-- An update that gets through leaves a lawful row. -/
theorem Lawful.update (hold : old.Lawful) (h : u.check old (u.apply numerals old) = .ok ()) :
    (u.apply numerals old).Lawful := by
  obtain ⟨hcolumn, hzero⟩ := hold.columns numerals u
  have hstarted : (u.apply numerals old).started_at ≠ .null := by
    rw [RawRunUpdate.check, Registry.enforce_ok] at h
    simp only [List.forall_mem_cons] at h
    exact SqlValue.isNull_eq_false.mp h.2.2.1
  obtain ⟨-, hstarts | ⟨hfinishes, -⟩⟩ := (check_ok hold).mp h
  · refine ⟨hstarted, ⟨_, hstarts.running⟩, hcolumn, hzero, fun hregistered => ?_,
      fun _ => hstarts.execution_started_at⟩
    rw [hstarts.running] at hregistered
    exact absurd (SqlValue.text.inj hregistered) (by decide)
  · have hterminal : ∃ state : RunState, (u.apply numerals old).state = .text state.value ∧
        state.isTerminal = true := by
      rcases hfinishes.outcome with ⟨hcompleted, -⟩ | ⟨hfailed, -⟩
      · exact ⟨.completed, hcompleted, rfl⟩
      · exact ⟨.failed, hfailed, rfl⟩
    obtain ⟨state, hstate, hend⟩ := hterminal
    have hother : ∀ other : RunState, other.isTerminal = false →
        (u.apply numerals old).state ≠ .text other.value := by
      intro other hopen heq
      rw [hstate] at heq
      rw [RunState.value_inj (SqlValue.text.inj heq), hopen] at hend
      cases hend
    exact ⟨hstarted, ⟨state, hstate⟩, hcolumn, hzero, fun heq => absurd heq (hother _ rfl),
      fun heq => absurd heq (hother _ rfl)⟩

/-- The update finishes a running row and sets its execution time to NULL. -/
def Erases (numerals : SqlNumerals) (old : RawRunRow) (u : RawRunUpdate) : Prop :=
  u.namesIdentity = false ∧ old.Finishes (u.apply numerals old) ∧
    (u.apply numerals old).execution_started_at = .null

/-- What gets through is legal, but for an update that erases the execution time. -/
theorem legal_iff (hold : old.Lawful) :
    (u.check old (u.apply numerals old) = .ok () → old.Legal (u.apply numerals old)) ↔
      ¬ old.Erases numerals u := by
  constructor
  · rintro h ⟨hidentity, hfinishes, herased⟩
    have hlegal := h ((check_ok hold).mpr ⟨hidentity, Or.inr ⟨hfinishes, Or.inr herased⟩⟩)
    rcases hlegal.transition with hstarts | ⟨-, hsame⟩
    · exact hstarts.execution_started_at herased
    · exact hold.running hfinishes.running (hsame ▸ herased)
  · intro hnot hcheck
    obtain ⟨hidentity, h⟩ := (check_ok hold).mp hcheck
    have hnames := hidentity
    simp only [RawRunUpdate.namesIdentity, Bool.or_eq_false_iff, Option.isSome_eq_false_iff,
      Option.isNone_iff_eq_none] at hnames
    refine ⟨by simp [RawRunUpdate.apply, hnames.1.1], by simp [RawRunUpdate.apply, hnames.1.2],
      by simp [RawRunUpdate.apply, hnames.2], ?_⟩
    rcases h with hstarts | ⟨hfinishes, hsame | herased⟩
    · exact Or.inl hstarts
    · exact Or.inr ⟨hfinishes, hsame⟩
    · exact absurd ⟨hidentity, hfinishes, herased⟩ hnot

/-- The update of `start_run` gets through on every registered row. -/
theorem claim_accepted (hold : old.Lawful) (h : old.state = .text RunState.registered.value)
    (started_at : DateTime) :
    (Registry.claimUpdate started_at).raw.check old
      ((Registry.claimUpdate started_at).raw.apply numerals old) = .ok () := by
  obtain ⟨-, hcompleted, hexit, hnote⟩ := hold.registered h
  refine (check_ok hold).mpr ⟨rfl, Or.inl ⟨h, rfl, ?_, hcompleted, hexit, hnote⟩⟩
  nofun

/-- The update of `finish_run` gets through on every running row. -/
theorem finish_accepted (hold : old.Lawful) (h : old.state = .text RunState.running.value)
    (completed_at : DateTime) (exit_code : Int) (failure_note : Option Text) :
    (Registry.finishUpdate completed_at exit_code failure_note).raw.check old
      ((Registry.finishUpdate completed_at exit_code failure_note).raw.apply numerals old) = .ok () := by
  refine (check_ok hold).mpr ⟨rfl, Or.inr ⟨⟨h, SqlValue.noConfusion, SqlValue.noConfusion, ?_⟩, Or.inl rfl⟩⟩
  unfold Outcome Registry.finishUpdate Registry.terminalState
  by_cases hsuccess : exit_code = 0 ∧ failure_note = none
  · obtain ⟨rfl, rfl⟩ := hsuccess
    exact Or.inl ⟨rfl, rfl, rfl⟩
  · right
    refine ⟨by simp [RawRunUpdate.apply, RunUpdate.raw, hsuccess, SqlValue.toText], ?_⟩
    rcases not_and_or.mp hsuccess with hcode | hnote
    · left
      simpa [RawRunUpdate.apply, RunUpdate.raw, SqlValue.toInteger, SqlValue.ofInteger,
        SqlValue.zero, SqlNumber.toInteger] using hcode
    · right
      obtain ⟨note, rfl⟩ := Option.ne_none_iff_exists'.mp hnote
      exact SqlValue.noConfusion

end RawRunRow

/-! ## Runs of the table -/

/-- What is executed on `runs`; a DELETE always raises. -/
inductive RunsEvent where
  | insert
  | update (statement : RunsStatement)

/-- The ledger inserts registered rows, and anybody may execute any update. -/
inductive RunsStep (numerals : SqlNumerals) : List RawRunRow → RunsEvent → List RawRunRow → Prop
  | insert (rows : List RawRunRow) (run_id : Text) (prediction_id : Option Text) (started_at : Text) :
      RunsStep numerals rows .insert
        (rows ++ [RunRow.raw ⟨run_id, prediction_id, started_at, .registered, none, none, none, none⟩])
  | update (rows rows' : List RawRunRow) (statement : RunsStatement) :
      statement.execute numerals rows = .ok rows' → RunsStep numerals rows (.update statement) rows'

theorem RunRow.raw_injective : Function.Injective RunRow.raw := by
  have htext : ∀ s t : Option Text, SqlValue.ofText s = .ofText t → s = t := by
    intro s t h
    cases s <;> cases t <;> simp_all [SqlValue.ofText]
  have hinteger : ∀ m n : Option Int, SqlValue.ofInteger m = .ofInteger n → m = n := by
    intro m n h
    cases m <;> cases n <;> simp_all [SqlValue.ofInteger]
  intro a b h
  simp only [RunRow.raw, RawRunRow.mk.injEq, SqlValue.text.injEq] at h
  obtain ⟨hrun, hprediction, hstarted, hstate, hexecution, hcompleted, hexit, hnote⟩ := h
  have hvalue := RunState.value_inj hstate
  have hprediction := htext _ _ hprediction
  have hexecution := htext _ _ hexecution
  have hcompleted := htext _ _ hcompleted
  have hexit := hinteger _ _ hexit
  have hnote := htext _ _ hnote
  cases a
  cases b
  simp_all

/-- Where the triggers agree, an update may be executed on other representations of the rows. -/
theorem Registry.updateRows_map {α β : Type} {f : α → β} {selects : α → Bool} {selects' : β → Bool}
    {change : α → α} {change' : β → β} {trigger : α → α → Except Error Unit}
    {trigger' : β → β → Except Error Unit} {rows rows' : List α}
    (hselects : ∀ r ∈ rows, selects' (f r) = selects r) (hchange : ∀ r, change' (f r) = f (change r))
    (htrigger : ∀ r, trigger r (change r) = .ok () → trigger' (f r) (f (change r)) = .ok ())
    (h : updateRows selects change trigger rows = .ok rows') :
    updateRows selects' change' trigger' (rows.map f) = .ok (rows'.map f) := by
  induction rows generalizing rows' with
  | nil =>
    cases h
    rfl
  | cons r rows ih =>
    have hrest := fun {rest} => @ih rest fun x hx => hselects x (List.mem_cons_of_mem _ hx)
    rw [List.map_cons, updateRows, hselects r List.mem_cons_self]
    rw [updateRows] at h
    split at h
    · rename_i hsel
      obtain ⟨u, hfires, hupdated⟩ := bind_eq_ok.mp h
      obtain ⟨rest, hrows, heq⟩ := bind_eq_ok.mp hupdated
      cases heq
      rw [if_pos hsel, hchange, htrigger r hfires, hrest hrows]
      rfl
    · rename_i hsel
      obtain ⟨rest, hrows, heq⟩ := bind_eq_ok.mp h
      cases heq
      rw [if_neg hsel, hrest hrows]
      rfl

/-- The statement that an update of the ledger executes. -/
def RunsStatement.ofLedger (runs : List RunRow) (selects : RunRow → Bool) (u : RunUpdate) :
    RunsStatement where
  selects raw := runs.any fun r => r.raw == raw && selects r
  sets _ := u.raw

/-- An update of the ledger is a step of the table. -/
theorem updateRuns_step {selects : RunRow → Bool} {u : RunUpdate} {db db' : Registry} {n : Nat}
    (h : Registry.updateRuns selects u db = .ok (n, db')) :
    RunsStep numerals (db.runs.map RunRow.raw) (.update (.ofLedger db.runs selects u))
      (db'.runs.map RunRow.raw) := by
  obtain ⟨rows, hrows, heq⟩ := bind_eq_ok.mp h
  cases heq
  refine .update _ _ _ (Registry.updateRows_map ?_ (fun r => u.raw_apply r) (fun r hfires => ?_) hrows)
  · intro r hr
    rw [Bool.eq_iff_iff]
    simp only [RunsStatement.ofLedger, List.any_eq_true, Bool.and_eq_true, beq_iff_eq]
    constructor
    · rintro ⟨x, -, hx, hsel⟩
      rwa [RunRow.raw_injective hx] at hsel
    · exact fun hsel => ⟨r, hr, rfl, hsel⟩
  · rw [← @RunUpdate.raw_apply numerals u r]
    exact (u.raw_check r).mpr hfires

namespace RawRunRow

theorem lawful_registered (run_id : Text) (prediction_id : Option Text) (started_at : Text) :
    (RunRow.raw ⟨run_id, prediction_id, started_at, .registered, none, none, none, none⟩).Lawful where
  started_at := by simp [RunRow.raw]
  state := ⟨.registered, rfl⟩
  execution_column := by simp [RunRow.raw, SqlValue.ofText]
  exit_column := by simp [RunRow.raw, SqlValue.ofInteger, SqlValue.equal, SqlValue.zero]
  registered _ := ⟨rfl, rfl, rfl, rfl⟩
  running h := nomatch RunState.value_inj (SqlValue.text.inj h)

/-- Every step of the table keeps its rows lawful. -/
theorem lawful_step {rows rows' : List RawRunRow} {event : RunsEvent}
    (hrows : ∀ r ∈ rows, r.Lawful) (h : RunsStep numerals rows event rows') :
    ∀ r ∈ rows', r.Lawful := by
  cases h with
  | insert run_id prediction_id started_at =>
    intro r hr
    rcases List.mem_append.mp hr with hr | hr
    · exact hrows r hr
    · rw [List.mem_singleton.mp hr]
      exact lawful_registered _ _ _
  | update _ statement hexecute =>
    obtain ⟨rfl, hchecked⟩ := Registry.updateRows_ok hexecute
    intro r hr
    obtain ⟨old, hold, rfl⟩ := List.mem_map.mp hr
    split
    · exact (hrows old hold).update (hchecked old hold ‹_›)
    · exact hrows old hold

/-- In every run of the table, whatever updates were executed before: an update that gets through on
a row is a legal transition exactly when it does not erase the execution time of the row that it
finishes, and what `start_run` and `finish_run` execute gets through. -/
theorem lifecycle_exact {trace : List (List RawRunRow × RunsEvent)} {rows : List RawRunRow}
    (h : Run (RunsStep numerals) [] trace rows) {row : RawRunRow} (hrow : row ∈ rows) :
    (∀ u : RawRunUpdate, (u.check row (u.apply numerals row) = .ok () →
      row.Legal (u.apply numerals row)) ↔ ¬ row.Erases numerals u) ∧
    (row.state = .text RunState.registered.value → ∀ started_at,
      (Registry.claimUpdate started_at).raw.check row
        ((Registry.claimUpdate started_at).raw.apply numerals row) = .ok ()) ∧
    (row.state = .text RunState.running.value → ∀ completed_at exit_code failure_note,
      (Registry.finishUpdate completed_at exit_code failure_note).raw.check row
        ((Registry.finishUpdate completed_at exit_code failure_note).raw.apply numerals row) = .ok ()) := by
  have hlawful : row.Lawful := h.invariant (fun rows => ∀ r ∈ rows, r.Lawful)
    (fun _ _ _ hrows hstep => lawful_step hrows hstep) (by simp) row hrow
  exact ⟨fun u => legal_iff hlawful, claim_accepted hlawful, finish_accepted hlawful⟩

/-! ## An execution time set to NULL -/

open Registry (sampleTime)

/-- SQLite reads and spells whole numbers. -/
def sampleNumerals : SqlNumerals where
  read s := if s ≠ [] ∧ s.all Char.isDigit then some (.integer (Nat.ofDigitChars 10 s 0)) else none
  write
    | .integer n => (toString n).toList
    | .real x => x.val.text

/-- A run that was registered. -/
def sampleRegistered : RawRunRow :=
  RunRow.raw
    ⟨text "run_1", none, text "2026-01-01T00:00:00+00:00", .registered, none, none, none, none⟩

/-- The run once it was started. -/
def sampleStartedRow : RawRunRow :=
  { sampleRegistered with
    state := .text RunState.running.value
    execution_started_at := .text (text "2026-01-02T00:00:00+00:00") }

/-- An update that starts a run. -/
def sampleClaim : RawRunUpdate :=
  { state := some (.text RunState.running.value)
    execution_started_at := some (.text (text "2026-01-02T00:00:00+00:00")) }

/-- An update that finishes a run and forgets when its execution started. -/
def sampleErasure : RawRunUpdate :=
  { state := some (.text RunState.completed.value)
    execution_started_at := some .null
    completed_at := some (.text (text "2026-01-03T00:00:00+00:00"))
    exit_code := some .zero }

theorem sample_claimed : RunsStatement.execute sampleNumerals ⟨fun _ => true, fun _ => sampleClaim⟩
    [sampleRegistered] = .ok [sampleStartedRow] := by
  rfl

theorem sample_runs : ∃ trace, Run (RunsStep sampleNumerals) [] trace [sampleStartedRow] :=
  ⟨_, (Run.single (.insert [] _ _ _)).snoc (.update _ _ _ sample_claimed)⟩

theorem sample_erases : sampleStartedRow.Erases sampleNumerals sampleErasure :=
  ⟨rfl, ⟨rfl, by nofun, by nofun, Or.inl ⟨rfl, rfl, rfl⟩⟩, rfl⟩

/-- The triggers let a running row be completed with its execution time set to NULL. -/
theorem execution_time_erased :
    ∃ trace rows, Run (RunsStep sampleNumerals) [] trace rows ∧ ∃ row ∈ rows,
      sampleErasure.check row (sampleErasure.apply sampleNumerals row) = .ok () ∧
        (sampleErasure.apply sampleNumerals row).execution_started_at ≠ row.execution_started_at ∧
        ¬ row.Legal (sampleErasure.apply sampleNumerals row) := by
  obtain ⟨trace, hrun⟩ := sample_runs
  have hlawful : sampleStartedRow.Lawful := hrun.invariant (fun rows => ∀ r ∈ rows, r.Lawful)
    (fun _ _ _ hrows hstep => lawful_step hrows hstep) (by simp) _ (List.mem_singleton_self _)
  have hcheck := (check_ok hlawful).mpr ⟨rfl, Or.inr ⟨sample_erases.2.1, Or.inr rfl⟩⟩
  refine ⟨trace, _, hrun, _, List.mem_singleton_self _, hcheck, by nofun, fun hlegal => ?_⟩
  exact (legal_iff hlawful).mp (fun _ => hlegal) sample_erases

/-- An update that keeps the execution time gets through on the started run as a legal transition. -/
theorem lifecycle_exact_sample :
    (Registry.finishUpdate sampleTime 0 none).raw.check sampleStartedRow
      ((Registry.finishUpdate sampleTime 0 none).raw.apply sampleNumerals sampleStartedRow) = .ok () := by
  obtain ⟨trace, hrun⟩ := sample_runs
  exact (lifecycle_exact hrun (List.mem_singleton_self _)).2.2 rfl sampleTime 0 none

end RawRunRow

end Pine
