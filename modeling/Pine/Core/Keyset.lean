import Mathlib.Data.Finset.Card
import Mathlib.Data.Prod.Lex
import Mathlib.Logic.Relation
import Mathlib.Order.WellFounded
import Mathlib.Tactic.Common

/-!
# Scans by key

A table is read in batches, in descending order of a key; every batch starts below the last row
of the one before it. The rows that are taken fill a page. A page that is cut gives its last row
back, and the scan goes on below the row before it. The table may change between two steps: what
stays in it is still given out, and nothing is given out twice.
-/

namespace Pine.Keyset

variable {κ : Type*} [LinearOrder κ]

/-- The keys that a scan from a bound still reaches; without a bound, all of them. -/
def Below (after : Option κ) (k : κ) : Prop := ∀ a ∈ after, k < a

instance (after : Option κ) : DecidablePred (Below after) := fun k =>
  match after with
  | none => isTrue (by simp [Below])
  | some a => decidable_of_iff (k < a) (by simp [Below])

theorem below_none (k : κ) : Below none k := by
  simp [Below]

@[simp]
theorem below_some {a k : κ} : Below (some a) k ↔ k < a := by
  simp [Below]

/-! ## Batches -/

/-- The keys of a batch of at most `n` rows: the first of the table below a bound. -/
structure IsBatch (table : Set κ) (after : Option κ) (n : Nat) (batch : List κ) : Prop where
  short : batch.length ≤ n
  descending : batch.Pairwise (· > ·)
  sound : ∀ k ∈ batch, k ∈ table ∧ Below after k
  complete : ∀ k ∈ table, Below after k → k ∈ batch ∨ batch.length = n ∧ ∀ b ∈ batch, k < b

/-- The first keys of a sorted list are a batch. -/
theorem isBatch_take {table : Set κ} {after : Option κ} {sorted : List κ} (n : Nat)
    (hsorted : sorted.Pairwise (· > ·)) (hmem : ∀ k, k ∈ sorted ↔ k ∈ table ∧ Below after k) :
    IsBatch table after n (sorted.take n) where
  short := List.length_take_le n sorted
  descending := hsorted.sublist (List.take_sublist n sorted)
  sound k hk := (hmem k).mp (List.mem_of_mem_take hk)
  complete k hk hbelow := by
    have hin : k ∈ sorted.take n ++ sorted.drop n := by
      rw [List.take_append_drop]
      exact (hmem k).mpr ⟨hk, hbelow⟩
    rw [← List.take_append_drop n sorted] at hsorted
    obtain ⟨-, -, hacross⟩ := List.pairwise_append.mp hsorted
    rcases List.mem_append.mp hin with htake | hdrop
    · exact Or.inl htake
    · right
      constructor
      · have hlength := List.length_pos_of_mem hdrop
        rw [List.length_drop] at hlength
        rw [List.length_take]
        omega
      · intro b hb
        exact hacross b hb k hdrop

/-! ## Scans -/

/-- A scan: the keys given out in finished pages, those of the page that is being filled, the rest
of the batch, the last key of the batch or page, and whether rows may lie below it. -/
structure Scan (κ : Type*) where
  given : List κ
  matched : List κ
  pending : List κ
  position : Option κ
  more : Bool

namespace Scan

/-- Before the first batch. -/
def initial : Scan κ := ⟨[], [], [], none, true⟩

/-- The keys that a scan has seen, in the order in which it did. -/
def seen (s : Scan κ) : List κ := s.given ++ s.matched ++ s.pending

/-- A step of a scan of a table, some of whose keys may be taken and some passed over. -/
inductive Step (table takes skips : Set κ) : Scan κ → Scan κ → Prop
  | fetch (s : Scan κ) (n : Nat) (batch : List κ) : 0 < n → s.pending = [] → s.more = true →
      IsBatch table s.position n batch →
      Step table takes skips s { s with
        pending := batch
        position := batch.getLast?.or s.position
        more := decide (batch.length = n) }
  | take (s : Scan κ) (k : κ) (rest : List κ) : s.pending = k :: rest → k ∈ takes →
      Step table takes skips s { s with matched := s.matched ++ [k], pending := rest }
  | skip (s : Scan κ) (k : κ) (rest : List κ) : s.pending = k :: rest → k ∈ skips →
      Step table takes skips s { s with pending := rest }
  | cut (s : Scan κ) (page : List κ) (last next : κ) : s.matched = page ++ [last] ++ [next] →
      Step table takes skips s ⟨s.given ++ (page ++ [last]), [], [], some last, true⟩

/-- What a scan has seen descends to its position. -/
structure Ordered (s : Scan κ) : Prop where
  descending : s.seen.Pairwise (· > ·)
  above : ∀ k ∈ s.seen, ∃ p ∈ s.position, p ≤ k

theorem ordered_initial : Ordered (initial : Scan κ) where
  descending := List.Pairwise.nil
  above _ hk := by cases hk

variable {table takes skips : Set κ} {s t : Scan κ}

omit [LinearOrder κ] in
/-- Taking the next key of the batch changes nothing that was seen. -/
theorem seen_take {k : κ} {rest : List κ} (h : s.pending = k :: rest) :
    seen { s with matched := s.matched ++ [k], pending := rest } = s.seen := by
  simp [seen, h]

/-- The last key of a descending list is its least. -/
theorem getLast_le {batch : List κ} {last : κ} (hbatch : batch.Pairwise (· > ·))
    (hlast : batch.getLast? = some last) : ∀ k ∈ batch, last ≤ k := by
  obtain ⟨front, rfl⟩ := List.getLast?_eq_some_iff.mp hlast
  obtain ⟨-, -, hacross⟩ := List.pairwise_append.mp hbatch
  intro k hk
  rcases List.mem_append.mp hk with hfront | hlast
  · exact (hacross k hfront last (by simp)).le
  · exact (List.mem_singleton.mp hlast).ge

/-- Every step keeps what is seen in order. -/
theorem Ordered.step (hs : Ordered s) (h : Step table takes skips s t) : Ordered t := by
  cases h with
  | fetch n batch hn hpending hmore hbatch =>
    have hseen : s.seen = s.given ++ s.matched := by rw [seen, hpending, List.append_nil]
    have hbelow : ∀ k ∈ s.given ++ s.matched, ∀ b ∈ batch, b < k := by
      intro k hk b hb
      obtain ⟨p, hp, hle⟩ := hs.above k (hseen ▸ hk)
      exact lt_of_lt_of_le ((hbatch.sound b hb).2 p hp) hle
    constructor
    · refine List.pairwise_append.mpr ⟨hseen ▸ hs.descending, hbatch.descending, ?_⟩
      exact fun k hk b hb => hbelow k hk b hb
    · intro k hk
      change k ∈ s.given ++ s.matched ++ batch at hk
      change ∃ p ∈ batch.getLast?.or s.position, p ≤ k
      cases hlast : batch.getLast? with
      | none =>
        obtain rfl := List.getLast?_eq_none_iff.mp hlast
        rw [List.append_nil] at hk
        exact hs.above k (hseen ▸ hk)
      | some last =>
        refine ⟨last, rfl, ?_⟩
        rcases List.mem_append.mp hk with hk | hk
        · exact (hbelow k hk last (List.mem_of_getLast? hlast)).le
        · exact getLast_le hbatch.descending hlast k hk
  | take k rest hpending _ =>
    constructor
    · rw [seen_take hpending]
      exact hs.descending
    · rw [seen_take hpending]
      exact hs.above
  | skip k rest hpending _ =>
    have hsublist : (s.given ++ s.matched ++ rest).Sublist s.seen := by
      rw [seen, hpending]
      exact (List.sublist_cons_self k rest).append_left _
    exact ⟨hs.descending.sublist hsublist, fun x hx => hs.above x (hsublist.subset hx)⟩
  | cut page last next hmatched =>
    have hprefix : (s.given ++ (page ++ [last])).Pairwise (· > ·) := by
      refine hs.descending.sublist ?_
      rw [seen, hmatched]
      simp
    constructor
    · simpa [seen] using hprefix
    · intro k hk
      change k ∈ s.given ++ (page ++ [last]) ++ [] ++ [] at hk
      rw [List.append_nil, List.append_nil] at hk
      refine ⟨last, rfl, getLast_le hprefix ?_ k hk⟩
      rw [← List.append_assoc, List.getLast?_concat]

/-! ## Completeness -/

/-- Every key of a set was seen, or the scan still reaches it. -/
def Covers (keys : Set κ) (s : Scan κ) : Prop :=
  ∀ k ∈ keys, k ∈ s.seen ∨ s.more = true ∧ Below s.position k

theorem covers_initial (keys : Set κ) : Covers keys (initial : Scan κ) :=
  fun k _ => Or.inr ⟨rfl, below_none k⟩

/-- A step covers what the table holds and what may not be passed over. -/
theorem Covers.step {keys : Set κ} (hordered : Ordered s) (hs : Covers keys s)
    (h : Step table takes skips s t) (htable : keys ⊆ table) (hskips : ∀ k ∈ keys, k ∉ skips) :
    Covers keys t := by
  intro k hk
  cases h with
  | fetch n batch hn hpending hmore hbatch =>
    change k ∈ s.given ++ s.matched ++ batch ∨
      decide (batch.length = n) = true ∧ Below (batch.getLast?.or s.position) k
    rcases hs k hk with hseen | ⟨-, hbelow⟩
    · rw [seen, hpending, List.append_nil] at hseen
      exact Or.inl (List.mem_append_left _ hseen)
    · rcases hbatch.complete k (htable hk) hbelow with hin | ⟨hfull, hless⟩
      · exact Or.inl (List.mem_append_right _ hin)
      · refine Or.inr ⟨decide_eq_true hfull, ?_⟩
        cases hlast : batch.getLast? with
        | none => exact hbelow
        | some last => exact below_some.mpr (hless last (List.mem_of_getLast? hlast))
  | take x rest hpending _ =>
    rw [seen_take hpending]
    exact hs k hk
  | skip x rest hpending hskip =>
    rcases hs k hk with hseen | hbelow
    · have hne : k ≠ x := by
        rintro rfl
        exact hskips k hk hskip
      rw [seen, hpending] at hseen
      simp only [List.mem_append, List.mem_cons, hne, false_or] at hseen
      exact Or.inl (by simpa only [seen, List.mem_append] using hseen)
    · exact Or.inr hbelow
  | cut page last next hmatched =>
    have hsplit : s.seen = (s.given ++ (page ++ [last])) ++ (next :: s.pending) := by
      simp [seen, hmatched]
    have hdescending := hordered.descending
    rw [hsplit] at hdescending
    obtain ⟨-, -, hacross⟩ := List.pairwise_append.mp hdescending
    have hlast : last ∈ s.given ++ (page ++ [last]) := by simp
    change k ∈ s.given ++ (page ++ [last]) ++ [] ++ [] ∨ true = true ∧ Below (some last) k
    rw [List.append_nil, List.append_nil, below_some]
    rcases hs k hk with hseen | ⟨-, hbelow⟩
    · rw [hsplit] at hseen
      rcases List.mem_append.mp hseen with hgiven | hrest
      · exact Or.inl hgiven
      · exact Or.inr ⟨rfl, hacross last hlast k hrest⟩
    · obtain ⟨p, hp, hle⟩ := hordered.above last (hsplit ▸ List.mem_append_left _ hlast)
      exact Or.inr ⟨rfl, lt_of_lt_of_le (hbelow p hp) hle⟩

/-- A scan that is over has seen what it covers. -/
theorem Covers.all {keys : Set κ} (hs : Covers keys s) (hmore : s.more = false) :
    ∀ k ∈ keys, k ∈ s.seen := by
  intro k hk
  rcases hs k hk with hseen | ⟨htrue, -⟩
  · exact hseen
  · rw [hmore] at htrue
    cases htrue

/-! ## Soundness -/

/-- What a scan has seen is in a set, and what it took is in another. -/
structure Sound (table takes : Set κ) (s : Scan κ) : Prop where
  seen : ∀ k ∈ s.seen, k ∈ table
  taken : ∀ k ∈ s.given ++ s.matched, k ∈ takes

omit [LinearOrder κ] in
theorem sound_initial (table takes : Set κ) : Sound table takes (initial : Scan κ) where
  seen _ hk := by cases hk
  taken _ hk := by cases hk

/-- What is seen was in the table, and what is taken could be taken. -/
theorem Sound.step {table' takes' : Set κ} (hs : Sound table' takes' s)
    (h : Step table takes skips s t) (htable : table ⊆ table') (htakes : takes ⊆ takes') :
    Sound table' takes' t := by
  cases h with
  | fetch n batch hn hpending hmore hbatch =>
    refine ⟨fun k hk => ?_, hs.taken⟩
    rcases List.mem_append.mp hk with hseen | hin
    · exact hs.seen k (List.mem_append_left _ hseen)
    · exact htable (hbatch.sound k hin).1
  | take x rest hpending htake =>
    refine ⟨by rw [seen_take hpending]; exact hs.seen, fun k hk => ?_⟩
    change k ∈ s.given ++ (s.matched ++ [x]) at hk
    rw [← List.append_assoc] at hk
    rcases List.mem_append.mp hk with htaken | hlast
    · exact hs.taken k htaken
    · exact htakes (List.mem_singleton.mp hlast ▸ htake)
  | skip x rest hpending _ =>
    refine ⟨fun k hk => hs.seen k ?_, hs.taken⟩
    rw [Scan.seen, hpending]
    exact (List.sublist_cons_self x rest).append_left _ |>.subset hk
  | cut page last next hmatched =>
    have htaken : ∀ k ∈ s.given ++ (page ++ [last]), k ∈ s.given ++ s.matched := by
      intro k hk
      rw [hmatched, ← List.append_assoc]
      exact List.mem_append_left _ hk
    constructor
    · intro k hk
      change k ∈ s.given ++ (page ++ [last]) ++ [] ++ [] at hk
      rw [List.append_nil, List.append_nil] at hk
      exact hs.seen k (List.mem_append_left _ (htaken k hk))
    · intro k hk
      change k ∈ s.given ++ (page ++ [last]) ++ [] at hk
      rw [List.append_nil] at hk
      exact hs.taken k (htaken k hk)

/-! ## Termination -/

/-- How many keys of a table lie below a bound. -/
def left (rows : Finset κ) (after : Option κ) : Nat := (rows.filter (Below after)).card

/-- What is left to do: the rows below the finished pages, and those of the page being filled. -/
def measure (rows : Finset κ) (s : Scan κ) : ℕ ×ₗ ℕ :=
  toLex (left rows s.given.getLast?,
    (if s.more then 2 * left rows s.position + 1 else 0) + s.pending.length)

/-- The rows of a batch are no longer below it. -/
theorem left_batch {rows : Finset κ} {after : Option κ} {batch : List κ} {last : κ}
    (hdescending : batch.Pairwise (· > ·)) (hlast : batch.getLast? = some last)
    (hsound : ∀ k ∈ batch, k ∈ rows ∧ Below after k) :
    left rows (some last) + batch.length ≤ left rows after := by
  have hnodup : batch.Nodup := hdescending.imp fun h => h.ne'
  have hleast := getLast_le hdescending hlast
  have hlastBelow := (hsound last (List.mem_of_getLast? hlast)).2
  have hdisjoint : Disjoint (rows.filter (Below (some last))) batch.toFinset := by
    refine Finset.disjoint_left.mpr fun k hk hbatch => ?_
    have hless := below_some.mp (Finset.mem_filter.mp hk).2
    exact absurd hless (not_lt.mpr (hleast k (List.mem_toFinset.mp hbatch)))
  have hsubset : rows.filter (Below (some last)) ∪ batch.toFinset ⊆ rows.filter (Below after) := by
    intro k hk
    rcases Finset.mem_union.mp hk with hbelow | hbatch
    · obtain ⟨hrow, hless⟩ := Finset.mem_filter.mp hbelow
      refine Finset.mem_filter.mpr ⟨hrow, fun a ha => ?_⟩
      exact (below_some.mp hless).trans (hlastBelow a ha)
    · exact Finset.mem_filter.mpr (hsound k (List.mem_toFinset.mp hbatch))
  have hcard := Finset.card_le_card hsubset
  rwa [Finset.card_union_of_disjoint hdisjoint, List.toFinset_card_of_nodup hnodup] at hcard

/-- Every step of a scan of a table that stays as it is leaves less to do. -/
theorem measure_step {rows : Finset κ} (hordered : Ordered s) (hsound : Sound ↑rows takes s)
    (h : Step ↑rows takes skips s t) : measure rows t < measure rows s := by
  cases h with
  | fetch n batch hn hpending hmore hbatch =>
    refine Prod.Lex.toLex_lt_toLex.mpr (Or.inr ⟨rfl, ?_⟩)
    change (if decide (batch.length = n) = true then
        2 * left rows (batch.getLast?.or s.position) + 1 else 0) + batch.length <
      (if s.more = true then 2 * left rows s.position + 1 else 0) + s.pending.length
    rw [hmore, hpending, if_pos rfl, List.length_nil, Nat.add_zero]
    cases hlast : batch.getLast? with
    | none =>
      obtain rfl := List.getLast?_eq_none_iff.mp hlast
      rw [if_neg (by simpa using hn.ne)]
      simp
    | some last =>
      have hleft := left_batch hbatch.descending hlast fun k hk => hbatch.sound k hk
      have hpos := List.length_pos_of_mem (List.mem_of_getLast? hlast)
      rw [Option.some_or]
      split <;> omega
  | take k rest hpending _ =>
    refine Prod.Lex.toLex_lt_toLex.mpr (Or.inr ⟨rfl, ?_⟩)
    simp [hpending]
  | skip k rest hpending _ =>
    refine Prod.Lex.toLex_lt_toLex.mpr (Or.inr ⟨rfl, ?_⟩)
    simp [hpending]
  | cut page last next hmatched =>
    refine Prod.Lex.toLex_lt_toLex.mpr (Or.inl ?_)
    change left rows (s.given ++ (page ++ [last])).getLast? < left rows s.given.getLast?
    have hseen : s.seen = s.given ++ (page ++ [last] ++ ([next] ++ s.pending)) := by
      simp [seen, hmatched]
    have hdescending := hordered.descending
    rw [hseen] at hdescending
    obtain ⟨-, hpage, hacross⟩ := List.pairwise_append.mp hdescending
    obtain ⟨hpage, -, -⟩ := List.pairwise_append.mp hpage
    have hlength := @left_batch _ _ rows s.given.getLast? (page ++ [last]) last hpage (by simp) ?_
    · rw [← List.append_assoc, List.getLast?_concat]
      simp only [List.length_append, List.length_singleton] at hlength
      omega
    · intro k hk
      refine ⟨hsound.seen k ?_, fun a ha => ?_⟩
      · rw [hseen]
        simp only [List.mem_append]
        exact Or.inr (Or.inl (List.mem_append.mp hk))
      · exact hacross a (List.mem_of_getLast? ha) k (List.mem_append_left _ hk)

/-! ## Several steps -/

open Relation (ReflTransGen TransGen)

theorem Ordered.reach (hs : Ordered s) (h : ReflTransGen (Step table takes skips) s t) :
    Ordered t := by
  induction h with
  | refl => exact hs
  | tail _ hstep ih => exact ih.step hstep

theorem Covers.reach {keys : Set κ} (hordered : Ordered s) (hs : Covers keys s)
    (h : ReflTransGen (Step table takes skips) s t) (htable : keys ⊆ table)
    (hskips : ∀ k ∈ keys, k ∉ skips) : Covers keys t := by
  induction h with
  | refl => exact hs
  | tail hreach hstep ih => exact ih.step (hordered.reach hreach) hstep htable hskips

/-- What is seen was in some table, and what is taken could be taken from it. -/
theorem Sound.reach_mono {table' takes' : Set κ} (hs : Sound table' takes' s)
    (h : ReflTransGen (Step table takes skips) s t) (htable : table ⊆ table')
    (htakes : takes ⊆ takes') : Sound table' takes' t := by
  induction h with
  | refl => exact hs
  | tail _ hstep ih => exact ih.step hstep htable htakes

theorem Sound.reach (hs : Sound table takes s) (h : ReflTransGen (Step table takes skips) s t) :
    Sound table takes t :=
  hs.reach_mono h subset_rfl subset_rfl

/-- Steps of a scan of a table that stays as it is leave less to do. -/
theorem measure_reach {rows : Finset κ} (hordered : Ordered s) (hsound : Sound ↑rows takes s)
    (h : TransGen (Step ↑rows takes skips) s t) : measure rows t < measure rows s := by
  induction h with
  | single hstep => exact measure_step hordered hsound hstep
  | tail hreach hstep ih =>
    have hfirst := hreach.to_reflTransGen
    exact (measure_step (hordered.reach hfirst) (hsound.reach hfirst) hstep).trans ih

end Scan

end Pine.Keyset
