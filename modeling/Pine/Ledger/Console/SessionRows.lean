import Pine.Core.Growth
import Pine.Core.Strip
import Pine.Ledger.Console.Sessions

/-!
# Rows of sessions

The row of a lawful session is read as that session, and the text of its times is ordered
as the times are. So a lookup among such rows is decided by the times of one session.
-/

namespace Pine

open DateTime (InCalendar)

/-! ## Timestamps -/

theorem timestamp_eq {a : Int} (h : InCalendar a) :
    timestamp a = h.date.isoformat ++ 'T' ::
      (DateTime.clockText (a % dayMicros).toNat ++ text "+00:00") := by
  simp [timestamp, InCalendar.date, Date.ofOrdinal, Date.isoformat, DateTime.clockText]

/-- A stored timestamp is read as its instant. -/
theorem storedInstant_timestamp {a : Int} (h : InCalendar a) :
    storedInstant (timestamp a) = some a := by
  obtain ⟨t, hread, haware, hinstant⟩ := h.fromisoformat_text ⟨0, by decide⟩ rfl
  have htext : text "+00:00" = DateTime.formatOffset ⟨0, by decide⟩ := by decide +kernel
  rw [storedInstant, timestamp_eq h, htext, hread, Option.bind_some, if_pos haware, hinstant]

/-- Timestamps compare as their instants do. -/
theorem timestamp_le_iff {a b : Int} (ha : InCalendar a) (hb : InCalendar b) :
    textLe (timestamp a) (timestamp b) = true ↔ a ≤ b := by
  rw [timestamp_eq ha, timestamp_eq hb]
  exact ha.text_le_iff hb _

/-! ## Identities -/

/-- A printable ASCII character other than a blank. -/
def IsGraphic (c : Char) : Prop := 0x21 ≤ c.toNat ∧ c.toNat ≤ 0x7E

instance (c : Char) : Decidable (IsGraphic c) := inferInstanceAs (Decidable (_ ∧ _))

theorem graphic_lower_table : ∀ n < 128, IsGraphic (Char.ofNat n) →
    IsGraphic (Char.ofNat n).toLower ∧ isSpace (Char.ofNat n).toLower = false ∧
      (Char.ofNat n).toLower.toLower = (Char.ofNat n).toLower := by
  decide +kernel

/-- Lower case keeps a character graphic, and is its own lower case. -/
theorem IsGraphic.lower {c : Char} (h : IsGraphic c) :
    IsGraphic c.toLower ∧ isSpace c.toLower = false ∧ c.toLower.toLower = c.toLower := by
  have hlt : c.toNat < 128 := Nat.lt_of_le_of_lt h.2 (by decide)
  have htable := graphic_lower_table c.toNat hlt
  rw [Char.ofNat_toNat] at htable
  exact htable h

/-- Stripping leaves a text that holds no blanks. -/
theorem strip_of_no_space {s : Text} (h : ∀ c ∈ s, isSpace c = false) : strip s = s := by
  have hbare : Bare isSpace s :=
    ⟨fun c hc => h c (List.mem_of_mem_head? hc), fun c hc => h c (List.mem_of_mem_getLast? hc)⟩
  have hstripped := stripOf_eq (a := []) (b := []) (by simp) (by simp) hbare
  rw [strip_eq]
  simpa using hstripped

/-- What a normalized identity is. -/
theorem normalizeUserIdentity_some {value identity : Text}
    (h : normalizeUserIdentity value = some identity) :
    ∃ normalized : Text, normalized ≠ [] ∧ normalized.length ≤ 320 ∧
      (∀ c ∈ normalized, IsGraphic c) ∧ identity = asciiLower normalized := by
  unfold normalizeUserIdentity at h
  split at h
  · cases h
  · dsimp only at h
    split at h
    · cases h
    · rename_i hnot
      cases h
      push Not at hnot
      refine ⟨strip value, hnot.1, hnot.2.1, fun c hc => ?_, rfl⟩
      have hgraphic := List.any_eq_false.mp (Bool.eq_false_iff.mpr hnot.2.2) c hc
      simp only [decide_eq_true_eq, not_or, Nat.not_lt] at hgraphic
      exact hgraphic

/-- A normalized identity is its own normal form. -/
theorem normalizeUserIdentity_idem {value identity : Text}
    (h : normalizeUserIdentity value = some identity) :
    normalizeUserIdentity identity = some identity := by
  obtain ⟨normalized, hne, hlength, hgraphic, rfl⟩ := normalizeUserIdentity_some h
  have hlower : ∀ c ∈ asciiLower normalized, IsGraphic c ∧ isSpace c = false ∧ c.toLower = c := by
    intro c hc
    obtain ⟨d, hd, rfl⟩ := List.mem_map.mp hc
    exact (hgraphic d hd).lower
  have hascii : (asciiLower normalized).all (fun c => decide (c.toNat < 128)) = true := by
    refine List.all_eq_true.mpr fun c hc => decide_eq_true ?_
    exact Nat.lt_of_le_of_lt (hlower c hc).1.2 (by decide)
  have hstrip := strip_of_no_space fun c hc => (hlower c hc).2.1
  have hplain : ¬ ((asciiLower normalized) = [] ∨ 320 < (asciiLower normalized).length ∨
      ((asciiLower normalized).any fun c => decide (c.toNat < 0x21 ∨ 0x7E < c.toNat)) = true) := by
    rintro (hnil | hlong | hany)
    · exact hne (List.map_eq_nil_iff.mp hnil)
    · rw [asciiLower, List.length_map] at hlong
      omega
    · obtain ⟨c, hc, hout⟩ := List.any_eq_true.mp hany
      have hrange := (hlower c hc).1
      simp only [decide_eq_true_eq, IsGraphic] at hout hrange
      omega
  have hsame : asciiLower (asciiLower normalized) = asciiLower normalized :=
    (List.map_congr_left fun c hc => (hlower c hc).2.2).trans (List.map_id _)
  rw [normalizeUserIdentity, if_neg (by rw [hascii]; simp), hstrip]
  exact (if_neg hplain).trans (congrArg some hsame)

/-! ## Lawful sessions -/

/-- A session whose row is well formed. -/
structure ConsoleSession.Lawful (session : ConsoleSession) : Prop where
  hash : isSessionHash session.session_hash = true
  identity : normalizeUserIdentity session.user_id = some session.user_id
  secret : isOpaqueToken session.csrf_secret = true
  first : (dayMicros : Int) ≤ session.created_at
  seen : session.created_at ≤ session.last_seen_at
  idle : session.last_seen_at ≤ session.idle_expires_at
  absolute : session.idle_expires_at ≤ session.absolute_expires_at
  last : session.absolute_expires_at < (DateTime.maxOrdinal + 1) * (dayMicros : Int)

namespace ConsoleSession.Lawful

variable {session : ConsoleSession} (h : session.Lawful)

include h

theorem created_in : InCalendar session.created_at :=
  ⟨h.first, lt_of_le_of_lt ((h.seen.trans h.idle).trans h.absolute) h.last⟩

theorem seen_in : InCalendar session.last_seen_at :=
  ⟨h.first.trans h.seen, lt_of_le_of_lt (h.idle.trans h.absolute) h.last⟩

theorem idle_in : InCalendar session.idle_expires_at :=
  ⟨h.first.trans (h.seen.trans h.idle), lt_of_le_of_lt h.absolute h.last⟩

theorem absolute_in : InCalendar session.absolute_expires_at :=
  ⟨h.first.trans ((h.seen.trans h.idle).trans h.absolute), h.last⟩

/-- The row of a lawful session is read as that session. -/
theorem sessionFromRow_row : sessionFromRow session.row = some session := by
  have hread : ∀ {a : Int}, InCalendar a → storedInstant (timestamp a) = some a :=
    fun ha => storedInstant_timestamp ha
  simp only [sessionFromRow, ConsoleSession.row, h.identity, hread h.created_in, hread h.seen_in,
    hread h.idle_in, hread h.absolute_in, Option.bind_eq_bind, Option.bind_some]
  exact if_pos ⟨h.hash, h.secret, h.seen, h.idle, h.absolute⟩

end ConsoleSession.Lawful

/-- The session after a use. -/
def ConsoleSession.used (session : ConsoleSession) (now idle_expires_at : Int) : ConsoleSession :=
  { session with last_seen_at := now, idle_expires_at }

/-- A use within the lifetimes leaves a lawful session. -/
theorem ConsoleSession.Lawful.used {session : ConsoleSession} (h : session.Lawful) {now idle : Int}
    (hseen : session.last_seen_at ≤ now) (hidle : now ≤ idle)
    (habsolute : idle ≤ session.absolute_expires_at) : (session.used now idle).Lawful :=
  { h with seen := h.seen.trans hseen, idle := hidle, absolute := habsolute }

/-! ## Stored sessions -/

/-- Rows of lawful sessions under hashes of their own. -/
structure Stores (rows : List SessionRow) : Prop where
  nodup : (rows.map SessionRow.session_hash).Nodup
  lawful : ∀ row ∈ rows, ∃ session : ConsoleSession, session.Lawful ∧ row = session.row

namespace Stores

variable {rows : List SessionRow}

/-- The row of a hash is found. -/
theorem find (h : Stores rows) {session : ConsoleSession} (hmem : session.row ∈ rows) :
    rows.find? (·.session_hash == session.session_hash) = some session.row :=
  find?_key_of_mem h.nodup hmem

/-- Rows of one hash are one row. -/
theorem eq_of_hash (h : Stores rows) {r r' : SessionRow} (hr : r ∈ rows) (hr' : r' ∈ rows)
    (hhash : r.session_hash = r'.session_hash) : r = r' := by
  have hfound := find?_key_of_mem h.nodup hr
  rw [hhash] at hfound
  exact Option.some.inj (hfound.symm.trans (find?_key_of_mem h.nodup hr'))

theorem filter (h : Stores rows) (keep : SessionRow → Bool) : Stores (rows.filter keep) :=
  ⟨h.nodup.sublist (List.Sublist.map _ List.filter_sublist),
    fun row hrow => h.lawful row (List.mem_of_mem_filter hrow)⟩

theorem append (h : Stores rows) {session : ConsoleSession} (hlawful : session.Lawful)
    (hfree : ∀ r ∈ rows, r.session_hash ≠ session.session_hash) :
    Stores (rows ++ [session.row]) := by
  have hnew : session.row.session_hash ∉ rows.map SessionRow.session_hash := by
    intro hmem
    obtain ⟨r, hr, hhash⟩ := List.mem_map.mp hmem
    exact hfree r hr hhash
  refine ⟨nodup_append_key h.nodup hnew, fun row hrow => ?_⟩
  rcases List.mem_append.mp hrow with hold | hnew
  · exact h.lawful row hold
  · exact ⟨session, hlawful, List.mem_singleton.mp hnew⟩

end Stores

/-- The rows after a use of one session. -/
def useRows (session_hash : Text) (now idle : Int) (rows : List SessionRow) : List SessionRow :=
  rows.map fun r => if r.session_hash = session_hash then
    { r with last_seen_at := timestamp now, idle_expires_at := timestamp idle } else r

/-- A row after a use is the used session's, or was there before. -/
theorem mem_useRows {rows : List SessionRow} (h : Stores rows) {session : ConsoleSession}
    (hmem : session.row ∈ rows) {now idle : Int} {row : SessionRow} :
    row ∈ useRows session.session_hash now idle rows ↔
      row = (session.used now idle).row ∨
        row ∈ rows ∧ row.session_hash ≠ session.session_hash := by
  simp only [useRows, List.mem_map]
  constructor
  · rintro ⟨r, hr, rfl⟩
    by_cases hhash : r.session_hash = session.session_hash
    · rw [if_pos hhash, h.eq_of_hash hr hmem hhash]
      exact Or.inl rfl
    · rw [if_neg hhash]
      exact Or.inr ⟨hr, hhash⟩
  · rintro (rfl | ⟨hr, hhash⟩)
    · exact ⟨session.row, hmem, if_pos rfl⟩
    · exact ⟨row, hr, if_neg hhash⟩

theorem Stores.useRows {rows : List SessionRow} (h : Stores rows) {session : ConsoleSession}
    (hmem : session.row ∈ rows) {now idle : Int} (hused : (session.used now idle).Lawful) :
    Stores (useRows session.session_hash now idle rows) := by
  refine ⟨?_, fun row hrow => ?_⟩
  · rw [Pine.useRows, map_key_of_keeps]
    · exact h.nodup
    · intro r hr
      split <;> rfl
  · rcases (mem_useRows h hmem).mp hrow with rfl | ⟨hold, -⟩
    · exact ⟨_, hused, rfl⟩
    · exact h.lawful row hold

/-! ## A lookup among stored sessions -/

namespace SessionWorld

variable {w : SessionWorld} {rows : List SessionRow} {session : ConsoleSession} {now : Int}

theorem now_in (h : w.now = .ok now) : InCalendar now := by
  unfold SessionWorld.now at h
  split at h
  · exact DateTime.utcInstant_some (present_ok.mp h)
  · cases h

theorem later_ok {instant lifetime t : Int} (h : later instant lifetime = .ok t) :
    t = instant + lifetime ∧ t < (DateTime.maxOrdinal + 1) * (dayMicros : Int) := by
  unfold later at h
  split at h
  · cases h
    exact ⟨rfl, ‹_›⟩
  · cases h

/-- The trigger lets a use through exactly when time does not move backward. -/
theorem run_advance (h : Stores rows) (hlawful : session.Lawful) (hmem : session.row ∈ rows)
    (hnow : InCalendar now) {idle : Int} (hidle : now ≤ idle)
    (habsolute : idle ≤ session.absolute_expires_at) :
    (advance session.session_hash (timestamp now) (timestamp idle)).run rows =
      if session.last_seen_at ≤ now then (.ok (), useRows session.session_hash now idle rows)
      else (.error .unavailable, rows) := by
  have hidlein : InCalendar idle :=
    ⟨hnow.1.trans hidle, lt_of_le_of_lt habsolute hlawful.last⟩
  have hseen := timestamp_le_iff hlawful.seen_in hnow
  have horder := (timestamp_le_iff hnow hidlein).mpr hidle
  have hcap := (timestamp_le_iff hidlein hlawful.absolute_in).mpr habsolute
  have hrefuses : (rows.any fun r => r.session_hash == session.session_hash &&
      (!textLe r.last_seen_at (timestamp now) || !textLe (timestamp now) (timestamp idle) ||
        !textLe (timestamp idle) r.absolute_expires_at)) = true ↔ ¬ session.last_seen_at ≤ now := by
    rw [List.any_eq_true, ← hseen]
    constructor
    · rintro ⟨r, hr, hbad⟩
      simp only [Bool.and_eq_true, beq_iff_eq] at hbad
      obtain rfl := h.eq_of_hash hr hmem hbad.1
      simpa [ConsoleSession.row, horder, hcap] using hbad.2
    · intro hlate
      exact ⟨session.row, hmem, by simp [ConsoleSession.row, horder, hcap, hlate]⟩
  rw [advance, Program.run_update]
  by_cases hforward : session.last_seen_at ≤ now
  · rw [if_neg (fun hbad => hrefuses.mp hbad hforward), if_pos hforward]
    rfl
  · rw [if_pos (hrefuses.mpr hforward), if_neg hforward]

/-- What a lookup of its owner does with a live session. -/
theorem run_lookupSession (h : Stores rows) (hlawful : session.Lawful) (hmem : session.row ∈ rows)
    (hnow : InCalendar now) (hlifetime : 0 ≤ w.idle_lifetime)
    (habsolute : now < session.absolute_expires_at) (hidle : now < session.idle_expires_at) :
    (w.lookupSession session.user_id session.session_hash now session).run rows =
      match later now w.idle_lifetime with
      | .error e => (.error e, rows)
      | .ok idle =>
        if session.last_seen_at ≤ now then
          (.ok (.valid (session.used now (min idle session.absolute_expires_at))),
            useRows session.session_hash now (min idle session.absolute_expires_at) rows)
        else (.error .unavailable, rows) := by
  have hlive : ¬ (session.absolute_expires_at ≤ now ∨ session.idle_expires_at ≤ now) := by
    rintro (hle | hle) <;> omega
  rw [lookupSession, if_neg (not_not.mpr rfl), if_neg hlive, Program.run_bind, Program.run_check]
  cases hlater : later now w.idle_lifetime with
  | error e => rfl
  | ok idle =>
    obtain ⟨rfl, -⟩ := later_ok hlater
    have hlate : now ≤ min (now + w.idle_lifetime) session.absolute_expires_at := by omega
    have hadvance := run_advance h hlawful hmem hnow hlate (min_le_right _ _)
    dsimp only
    rw [Program.run_bind, hadvance]
    by_cases hforward : session.last_seen_at ≤ now
    · rw [if_pos hforward, if_pos hforward]
      rfl
    · rw [if_neg hforward, if_neg hforward]

/-- A lookup of an opaque cookie whose hash a stored session has. -/
theorem run_lookup (h : Stores rows) (hlawful : session.Lawful) (hmem : session.row ∈ rows)
    {cookie_value user_id identity : Text} (htoken : isOpaqueToken cookie_value = true)
    (hidentity : normalizeUserIdentity user_id = some identity) (hnow : w.now = .ok now)
    (hhash : session.session_hash = w.hashSessionId cookie_value) :
    (w.lookup (some cookie_value) user_id).run rows =
      (w.lookupSession identity session.session_hash now session).run rows := by
  have hfound := h.find hmem
  rw [hhash] at hfound
  have hread := hlawful.sessionFromRow_row
  simp only [lookup, htoken, if_true, lookupOpaque, Program.run_bind, Program.run_check, hidentity,
    present, hnow, Program.run_query, hfound, hread, hhash]

end SessionWorld

end Pine
