import Pine.Core.Regex
import Pine.Core.Text

/-!
# Details of backend errors

What the backend says about a rejected request is shown in the console. Its details are
stripped and cut, those that look like secrets are replaced, and absolute paths in the
others are replaced afterwards, each by a text of fifteen characters.
-/

namespace Pine

open Regex (plus opt matchAt search searchFrom sub findall pieces scan Reads Over Blind Consuming)

namespace BackendDetails

/-- The characters that a letter of a pattern matches without regard to case: dotted and dotless `i`,
the Kelvin sign and the long `s` count as theirs. -/
def ignoreCase (c : Char) (x : Char) : Bool :=
  x == c || x == c.toUpper || (c == 'i' && (x.toNat == 0x130 || x.toNat == 0x131)) ||
    (c == 'k' && x.toNat == 0x212A) || (c == 's' && x.toNat == 0x17F)

/-- A word of a pattern that is matched without regard to case. -/
def word (s : String) : Regex Char := s.toList.foldr (fun c r => .seq (.one (ignoreCase c)) r) .empty

/-- `_SECRET_PATTERN` -/
def _SECRET_PATTERN : Regex Char :=
  .alt (.seq (word "bearer") (plus (.one isSpace))) <|
    .alt (word "password") <|
      .alt (word "secret") <|
        .alt (word "token") <|
          .alt (.seq (word "api") (.seq (opt (.one fun c => c == '_' || c == '-')) (word "key"))) <|
            word "authorization"

/-- `[^\s:;,]` -/
def inSegment (c : Char) : Bool := !(isSpace c || c == ':' || c == ';' || c == ',')

/-- `[\w.]`, over the characters of words. -/
def beforePath (isWord : Char → Bool) (c : Char) : Bool := isWord c || c == '.'

/-- `(?:[^\s:;,]+/)*` -/
def segments : Regex Char := .star (.seq (plus (.one inSegment)) (.one (· == '/')))

/-- `_ABSOLUTE_PATH_PATTERN` -/
def _ABSOLUTE_PATH_PATTERN (isWord : Char → Bool) : Regex Char :=
  .seq (.notBehind (beforePath isWord)) (.seq (.one (· == '/')) (.seq segments (plus (.one inSegment))))

/-- A detail, stripped and cut to 500 characters. -/
def normalized (detail : Text) : Text := (strip detail).take 500

/-- `sanitize_backend_details` -/
def sanitize_backend_details (isWord : Char → Bool) (details : List Text) : List Text :=
  (details.take 20).map fun detail =>
    if normalized detail = [] then text "[empty backend detail]"
    else if search _SECRET_PATTERN (normalized detail) then
      text "[redacted sensitive backend detail]"
    else sub (_ABSOLUTE_PATH_PATTERN isWord) (text "[redacted path]") (normalized detail)

/-! ## Paths -/

variable {isWord : Char → Bool}

/-- A path starts at a slash that does not follow a word, with a character of a segment after it. -/
def PathAt (isWord : Char → Bool) (c : Cursor Char) : Prop :=
  c.before.head?.any (beforePath isWord) = false ∧
    ∃ rest, c.rest = '/' :: rest ∧ rest.takeWhile inSegment ≠ []

/-- The segments of a path, whatever the places between them, lead to the same end. -/
theorem afterRun_eq {c d : Cursor Char} {w : Text} (hmoves : c.Moves w d)
    (hw : ∀ a ∈ w, inSegment a = true) :
    d.afterRun inSegment = c.afterRun inSegment ∧
      c.rest.takeWhile inSegment = w ++ d.rest.takeWhile inSegment := by
  obtain ⟨hrest, hbefore⟩ := hmoves
  have htake : c.rest.takeWhile inSegment = w ++ d.rest.takeWhile inSegment := by
    rw [hrest, List.takeWhile_append_of_pos hw]
  refine ⟨?_, htake⟩
  rw [Cursor.afterRun, Cursor.afterRun, htake, hbefore, hrest, List.dropWhile_append_of_pos hw,
    List.reverse_append, List.append_assoc]

theorem over_segments : Over (inSegment · = true) segments := by
  refine ⟨⟨fun a ha => ha, fun a ha => ha⟩, fun a ha => ?_⟩
  obtain rfl := eq_of_beq ha
  decide

/-- A path goes on to the end of its segments. -/
theorem matchAt_segments (c : Cursor Char) :
    matchAt (.seq segments (plus (.one inSegment))) c =
      if c.rest.takeWhile inSegment = [] then none else some (c.afterRun inSegment) := by
  have hplaces : ∀ d ∈ segments.ends c, d.afterRun inSegment = c.afterRun inSegment ∧
      (c.rest.takeWhile inSegment = [] → d.rest.takeWhile inSegment = []) := by
    intro d hd
    obtain ⟨w, hmoves, hw⟩ := (Regex.mem_ends.mp hd).moves over_segments
    obtain ⟨hafter, htake⟩ := afterRun_eq hmoves hw
    exact ⟨hafter, fun hempty => (List.append_eq_nil_iff.mp (htake.symm.trans hempty)).2⟩
  rw [Regex.matchAt_seq]
  split
  · rename_i hempty
    rw [List.findSome?_eq_none_iff]
    intro d hd
    rw [Regex.matchAt_plus_one, if_pos ((hplaces d hd).2 hempty)]
  · rename_i hnonempty
    have hsome : ((segments.ends c).findSome? (matchAt (plus (.one inSegment)))).isSome = true := by
      rw [List.findSome?_isSome_iff]
      exact ⟨c, Regex.mem_ends.mpr (.stop _ c), by
        rw [Regex.matchAt_plus_one, if_neg hnonempty]; rfl⟩
    obtain ⟨e, he⟩ := Option.isSome_iff_exists.mp hsome
    obtain ⟨d, hd, hde⟩ := List.exists_of_findSome?_eq_some he
    rw [Regex.matchAt_plus_one] at hde
    split at hde
    · cases hde
    · rw [he, ← hde, (hplaces d hd).1]

/-- A match at a place is a path that starts there, up to the end of its segments. -/
theorem matchAt_path {c e : Cursor Char} (h : matchAt (_ABSOLUTE_PATH_PATTERN isWord) c = some e) :
    PathAt isWord c ∧ ∃ rest, c.rest = '/' :: rest ∧ e.rest = rest.dropWhile inSegment := by
  obtain ⟨before, rest⟩ := c
  rw [_ABSOLUTE_PATH_PATTERN, Regex.matchAt_seq, Regex.ends] at h
  split at h
  · cases h
  · rename_i hbehind
    rw [List.findSome?_singleton, Regex.matchAt_seq] at h
    rcases rest with _ | ⟨a, rest⟩
    · cases h
    · rw [Regex.ends] at h
      split at h
      · rename_i hslash
        obtain rfl : a = '/' := eq_of_beq hslash
        rw [List.findSome?_singleton, matchAt_segments] at h
        split at h
        · cases h
        · rename_i hsegment
          cases h
          exact ⟨⟨by simpa using hbehind, rest, rfl, hsegment⟩, rest, rfl, rfl⟩
      · cases h

theorem matchAt_path_isSome {c : Cursor Char} :
    (matchAt (_ABSOLUTE_PATH_PATTERN isWord) c).isSome = true ↔ PathAt isWord c := by
  constructor
  · intro h
    obtain ⟨e, he⟩ := Option.isSome_iff_exists.mp h
    exact (matchAt_path he).1
  · rintro ⟨hbehind, rest, hrest, hsegment⟩
    obtain ⟨before, t⟩ := c
    obtain rfl : t = '/' :: rest := hrest
    have hsome := matchAt_segments ⟨'/' :: before, rest⟩
    rw [if_neg hsegment] at hsome
    have hreads := Regex.mem_ends.mp (List.mem_of_head? hsome)
    exact Regex.matchAt_isSome.mpr ⟨_, .seq (.notBehind hbehind) (.seq (.one before rest rfl) hreads)⟩

/-- A path reads at least its slash. -/
theorem path_consuming : Consuming (_ABSOLUTE_PATH_PATTERN isWord) := by
  intro c e h
  cases h with
  | seq hlook hrest =>
    cases hlook with
    | notBehind _ =>
      cases hrest with
      | seq hslash hsegments =>
        cases hslash with
        | one before rest _ => exact Nat.lt_succ_of_le hsegments.length_le

/-! ## What is left after the paths were replaced -/

/-- What stands for the pieces of a text from a place on. -/
def redacted (isWord : Char → Bool) (before rest : Text) : Text :=
  (scan (_ABSOLUTE_PATH_PATTERN isWord) 0 before rest).flatMap
    (Regex.Piece.replaced (text "[redacted path]"))

/-- A text without a slash holds no start of a path. -/
theorem searchFrom_append {before p rest : Text} (hp : '/' ∉ p) :
    searchFrom (_ABSOLUTE_PATH_PATTERN isWord) before (p ++ rest) =
      searchFrom (_ABSOLUTE_PATH_PATTERN isWord) (p.reverse ++ before) rest := by
  induction p generalizing before with
  | nil => rfl
  | cons a p ih =>
    rw [List.mem_cons, not_or] at hp
    have hnone : (matchAt (_ABSOLUTE_PATH_PATTERN isWord) ⟨before, a :: (p ++ rest)⟩).isSome = false := by
      rw [Bool.eq_false_iff, ne_eq, matchAt_path_isSome]
      rintro ⟨-, rest', hrest, -⟩
      exact hp.1 (List.cons.inj hrest).1.symm
    rw [List.cons_append, searchFrom, hnone, Bool.false_or, ih hp.2]
    simp

/-- A character that ends a path is kept. -/
theorem redacted_stop {before rest : Text} (h : ∀ a, rest.head? = some a → inSegment a = false) :
    (redacted isWord before rest).takeWhile inSegment = [] := by
  rcases rest with _ | ⟨a, rest⟩
  · rfl
  · have ha := h a rfl
    have hnone : matchAt (_ABSOLUTE_PATH_PATTERN isWord) ⟨before, a :: rest⟩ = none := by
      rw [← Option.not_isSome_iff_eq_none, matchAt_path_isSome]
      rintro ⟨-, rest', hrest, -⟩
      obtain ⟨rfl, -⟩ := List.cons.inj hrest
      exact absurd ha (by decide)
    rw [redacted, Regex.scan_kept hnone, List.flatMap_cons]
    simp [Regex.Piece.replaced, ha]

/-- No path starts in what is left: a slash that is kept follows a word, or is followed by a character
that ends a path, and both neighbours are kept with it. -/
theorem searchFrom_redacted {before before' rest : Text}
    (hbefore : before'.head?.any (beforePath isWord) = before.head?.any (beforePath isWord) ∨
      ∀ a, rest.head? = some a → inSegment a = false) :
    searchFrom (_ABSOLUTE_PATH_PATTERN isWord) before' (redacted isWord before rest) = false := by
  induction hn : rest.length using Nat.strong_induction_on generalizing before before' rest with
  | _ n ih =>
    subst hn
    rcases rest with _ | ⟨a, rest⟩
    · rw [redacted, scan, List.flatMap_nil, searchFrom, Bool.eq_false_iff, ne_eq,
        matchAt_path_isSome]
      rintro ⟨-, rest', hrest, -⟩
      cases hrest
    · cases hmatch : matchAt (_ABSOLUTE_PATH_PATTERN isWord) ⟨before, a :: rest⟩ with
      | none =>
        have hkept : redacted isWord before (a :: rest) = a :: redacted isWord (a :: before) rest := by
          rw [redacted, Regex.scan_kept hmatch, List.flatMap_cons]
          rfl
        have hnone : (matchAt (_ABSOLUTE_PATH_PATTERN isWord)
            ⟨before', a :: redacted isWord (a :: before) rest⟩).isSome = false := by
          rw [Bool.eq_false_iff, ne_eq, matchAt_path_isSome]
          rintro ⟨hbehind, rest', hrest, hsegment⟩
          obtain ⟨rfl, rfl⟩ := List.cons.inj hrest
          refine hsegment (redacted_stop fun b hb => ?_)
          by_contra hb'
          rcases hbefore with hsame | hstop
          · have hpath : PathAt isWord ⟨before, '/' :: rest⟩ := by
              refine ⟨hsame ▸ hbehind, rest, rfl, fun hempty => ?_⟩
              obtain ⟨tail, rfl⟩ := List.head?_eq_some_iff.mp hb
              rw [List.takeWhile_cons_of_pos (by simpa using hb')] at hempty
              cases hempty
            rw [← matchAt_path_isSome, hmatch] at hpath
            cases hpath
          · exact absurd (hstop '/' rfl) (by decide)
        rw [hkept, searchFrom, hnone, Bool.false_or]
        exact ih _ (by simp) (Or.inl rfl) rfl
      | some e =>
        obtain ⟨-, rest', hrest, hend⟩ := matchAt_path hmatch
        obtain ⟨w, hmoves⟩ := Regex.matchAt_moves hmatch
        have hshorter := path_consuming _ _ (Regex.mem_ends.mp (List.mem_of_head? hmatch))
        have hfound : redacted isWord before (a :: rest) =
            text "[redacted path]" ++ redacted isWord e.before e.rest := by
          rw [redacted, Regex.scan_found path_consuming hmatch hmoves, List.flatMap_cons]
          rfl
        rw [hfound, searchFrom_append (by decide)]
        refine ih _ hshorter (Or.inr fun b hb => ?_) rfl
        have hstop := List.head?_dropWhile_not inSegment rest'
        rwa [← hend, hb] at hstop

/-! ## Secrets -/

/-- No letter of a word is a bracket. -/
theorem over_word {s : String}
    (hs : s.toList.all (fun c => !ignoreCase c '[' && !ignoreCase c ']') = true) :
    Over (fun a => a ≠ '[' ∧ a ≠ ']') (word s) := by
  rw [word]
  generalize s.toList = letters at hs
  induction letters with
  | nil => trivial
  | cons c rest ih =>
    rw [List.all_cons, Bool.and_eq_true, Bool.and_eq_true, Bool.not_eq_true', Bool.not_eq_true'] at hs
    obtain ⟨⟨hopen, hclose⟩, hrest⟩ := hs
    refine ⟨fun a ha => ?_, ih hrest⟩
    constructor
    · rintro rfl
      exact absurd ha (by simp [hopen])
    · rintro rfl
      exact absurd ha (by simp [hclose])

theorem blind_word (s : String) : Blind (word s) := by
  rw [word]
  induction s.toList with
  | nil => trivial
  | cons c rest ih => exact ⟨trivial, ih⟩

/-- A secret is recognised by its own characters, none of which is a bracket. -/
theorem blind_secret : Blind _SECRET_PATTERN :=
  ⟨⟨blind_word _, trivial, trivial⟩, blind_word _, blind_word _, blind_word _,
    ⟨blind_word _, ⟨trivial, trivial⟩, blind_word _⟩, blind_word _⟩

theorem over_secret : Over (fun a => a ≠ '[' ∧ a ≠ ']') _SECRET_PATTERN := by
  have hspace : ∀ a, isSpace a = true → a ≠ '[' ∧ a ≠ ']' := by
    intro a ha
    constructor
    · rintro rfl
      exact absurd ha (by decide)
    · rintro rfl
      exact absurd ha (by decide)
  have hjoin : ∀ a, (a == '_' || a == '-') = true → a ≠ '[' ∧ a ≠ ']' := by
    intro a ha
    constructor
    · rintro rfl
      exact absurd ha (by decide)
    · rintro rfl
      exact absurd ha (by decide)
  exact ⟨⟨over_word (by decide), hspace, hspace⟩, over_word (by decide), over_word (by decide),
    over_word (by decide), ⟨over_word (by decide), ⟨hjoin, trivial⟩, over_word (by decide)⟩,
    over_word (by decide)⟩

/-- Replacing the paths of a text without a secret leaves a text without a secret. -/
theorem search_sub {t : Text} (ht : search _SECRET_PATTERN t = false) :
    search _SECRET_PATTERN (sub (_ABSOLUTE_PATH_PATTERN isWord) (text "[redacted path]") t) = false := by
  rw [Bool.eq_false_iff, ne_eq]
  intro hfound
  obtain ⟨w, hpart, hw, hletters⟩ := Regex.exists_part blind_secret over_secret hfound
  have hopen : '[' ∉ w := fun hmem => (hletters _ hmem).1 rfl
  have hclose : ']' ∉ w := fun hmem => (hletters _ hmem).2 rfl
  rcases @Regex.infix_sub Char _ path_consuming w (text "redacted path") t _ _ hopen hclose hpart with
    htext | hinner
  · rw [Regex.search_part blind_secret hw htext] at ht
    cases ht
  · have hnone : search _SECRET_PATTERN (text "redacted path") = false := by decide
    rw [Regex.search_part blind_secret hw hinner] at hnone
    cases hnone

/-! ## The result -/

/-- The paths of a detail leave room for what they are replaced by, or it is not shown at all: fifteen
characters for each. -/
def Fits (isWord : Char → Bool) (detail : Text) : Prop :=
  search _SECRET_PATTERN (normalized detail) = false →
    (normalized detail).length + 15 * (findall (_ABSOLUTE_PATH_PATTERN isWord) (normalized detail)).length ≤
      500 + (findall (_ABSOLUTE_PATH_PATTERN isWord) (normalized detail)).flatten.length

/-- Nothing that is returned holds a secret or an absolute path. -/
theorem sanitized_clean (isWord : Char → Bool) (details : List Text) :
    ∀ s ∈ sanitize_backend_details isWord details, search _SECRET_PATTERN s = false ∧
      search (_ABSOLUTE_PATH_PATTERN isWord) s = false := by
  have hslash : ∀ t : Text, '/' ∉ t → search (_ABSOLUTE_PATH_PATTERN isWord) t = false := by
    intro t ht
    have hend := @searchFrom_append isWord [] t [] ht
    rw [List.append_nil] at hend
    rw [search, hend, searchFrom, Bool.eq_false_iff, ne_eq, matchAt_path_isSome]
    rintro ⟨-, rest, hrest, -⟩
    cases hrest
  intro s hs
  obtain ⟨detail, -, rfl⟩ := List.mem_map.mp hs
  split
  · exact ⟨by decide, hslash _ (by decide)⟩
  · split
    · exact ⟨by decide, hslash _ (by decide)⟩
    · rename_i hsecret
      exact ⟨search_sub (by simpa using hsecret), searchFrom_redacted (Or.inl rfl)⟩

/-- What is returned for a detail is within its bound exactly when its paths leave room. -/
theorem sanitized_length (isWord : Char → Bool) (details : List Text) :
    (∀ s ∈ sanitize_backend_details isWord details, s.length ≤ 500) ↔
      ∀ detail ∈ details.take 20, Fits isWord detail := by
  simp only [sanitize_backend_details, List.forall_mem_map]
  refine forall₂_congr fun detail _ => ?_
  split
  · rename_i hempty
    refine ⟨fun _ _ => ?_, fun _ => by decide⟩
    rw [hempty]
    exact Nat.zero_le _
  · split
    · rename_i hsecret
      refine ⟨fun _ hnone => ?_, fun _ => by decide⟩
      rw [hsecret] at hnone
      cases hnone
    · rename_i hsecret
      have hlength := Regex.length_sub (@path_consuming isWord) (text "[redacted path]")
        (normalized detail)
      have hfifteen : (text "[redacted path]").length = 15 := by decide
      rw [Fits]
      simp only [hsecret, true_implies]
      rw [hfifteen] at hlength
      omega

/-- Whatever the backend says, the result is bounded and clean exactly when the paths of every detail
that is shown leave room for what they are replaced by. -/
theorem sanitize_backend_details_bounded_iff (isWord : Char → Bool) (details : List Text) :
    ((sanitize_backend_details isWord details).length ≤ 20 ∧
        ∀ s ∈ sanitize_backend_details isWord details, s.length ≤ 500 ∧
          search _SECRET_PATTERN s = false ∧ search (_ABSOLUTE_PATH_PATTERN isWord) s = false) ↔
      ∀ detail ∈ details.take 20, Fits isWord detail := by
  have hcount : (sanitize_backend_details isWord details).length ≤ 20 := by
    rw [sanitize_backend_details, List.length_map]
    exact List.length_take_le 20 details
  rw [← sanitized_length]
  constructor
  · exact fun h s hs => (h.2 s hs).1
  · exact fun h => ⟨hcount, fun s hs => ⟨h s hs, sanitized_clean isWord details s hs⟩⟩

/-- The characters of words among the first 128. -/
def asciiWord (c : Char) : Bool := c.isAlphanum || c == '_'

/-- A detail of thirty-three short paths. -/
def sampleDetail : Text := (List.replicate 33 (text "/a:")).flatten

/-- Its 99 characters become 528. -/
theorem replaced_paths_exceed_bound :
    sampleDetail.length = 99 ∧ (sanitize_backend_details asciiWord [sampleDetail]).map List.length = [528] ∧
      ¬ ∀ s ∈ sanitize_backend_details asciiWord [sampleDetail], s.length ≤ 500 := by
  have hlength : (sanitize_backend_details asciiWord [sampleDetail]).map List.length = [528] := by
    decide +kernel
  refine ⟨by decide, hlength, fun h => ?_⟩
  obtain ⟨s, hs⟩ := List.map_eq_singleton_iff.mp hlength
  rw [hs.1] at h
  have hbound := h s List.mem_cons_self
  rw [hs.2] at hbound
  exact absurd hbound (by decide)

end BackendDetails

end Pine
