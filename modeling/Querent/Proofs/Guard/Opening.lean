import Querent.Proofs.Guard.Verdict
import Querent.Proofs.Text.Blank

/-! How an accepted statement opens. The opening check reads letters from A to Z and underscores, and
the keyword scan reads whole words; a statement that the first leaves to the second has to be one that
the second sees. -/
namespace Querent.Guard

open Text Sql

variable {keys : List ForeignKey} {policy : Policy} {sql : String} {text : List Char}

/-- A character that the opening check reads on. -/
def isOpening (c : Char) : Bool := c.isAlpha || c == '_'

/-- How a text opens: with white space, a run of letters from A to Z and underscores, and the rest. -/
structure Opening (text : List Char) where
  lead : List Char
  run : List Char
  rest : List Char
  parts : text = lead ++ (run ++ rest)
  blank : ∀ c ∈ lead, isBlank c = true
  letters : ∀ c ∈ run, isOpening c = true
  ends : ∀ c ∈ (run ++ rest).head?, isBlank c = false
  stops : ∀ c ∈ rest.head?, isOpening c = false

/-- Every text opens in some way. -/
def Opening.of (text : List Char) : Opening text where
  lead := text.takeWhile isBlank
  run := (trimStart text).takeWhile isOpening
  rest := (trimStart text).dropWhile isOpening
  parts := by
    rw [List.takeWhile_append_dropWhile]
    exact List.takeWhile_append_dropWhile.symm
  blank := fun c hc => List.mem_takeWhile_imp hc
  letters := fun c hc => List.mem_takeWhile_imp hc
  ends := by
    intro c hc
    rw [List.takeWhile_append_dropWhile] at hc
    have hnot := List.head?_dropWhile_not isBlank text
    rw [show (text.dropWhile isBlank).head? = some c from hc] at hnot
    simpa using hnot
  stops := by
    intro c hc
    have hnot := List.head?_dropWhile_not isOpening (trimStart text)
    rw [show ((trimStart text).dropWhile isOpening).head? = some c from hc] at hnot
    simpa using hnot

namespace Opening

variable {k : String}

/-- The run is a word in any letter case. -/
def Spells (o : Opening text) (k : String) : Prop := sameLetters k.toList o.run = true

/-- A word character that is no letter from A to Z and no underscore follows the run at once. -/
def Continued (o : Opening text) : Prop := ∃ c ∈ o.rest.head?, isWordChar c = true

theorem isPlain_of_mem (o : Opening text) : ∀ c ∈ o.run, isPlain c = true := by
  intro c hc
  have hletter : (c.isAlpha || c == '_') = true := o.letters c hc
  rcases Bool.or_eq_true_iff.1 hletter with h | h
  · simp [isPlain, Char.isAlphanum, h]
  · simp [isPlain, h]

theorem leadingWord_eq (o : Opening text) : leadingWord text = o.run.map Char.toUpper := by
  have hlead : trimStart o.lead = [] := List.dropWhile_eq_nil_iff.2 o.blank
  have hfront : trimStart text = o.run ++ o.rest := by
    conv_lhs => rw [o.parts]
    rw [trimStart_append o.ends, hlead, List.nil_append]
  have hrun : (o.run ++ o.rest).takeWhile isOpening = o.run := by
    rw [List.takeWhile_append_of_pos o.letters]
    cases h : o.rest with
    | nil => simp
    | cons c cs =>
      have hc : isOpening c = false := o.stops c (by simp [h])
      rw [List.takeWhile_cons_of_neg (by simp [hc]), List.append_nil]
  rw [leadingWord, hfront]
  exact congrArg _ hrun

/-- The opening check compares the run with its word. -/
theorem leadingWord_beq (o : Opening text)
    (hk : k.toList.all (fun c => c.isUpper || c == '_') = true) :
    (leadingWord text == k.toList) = sameLetters k.toList o.run := by
  have hkey : ∀ c ∈ o.run, c.toUpper = keyLetter c := fun c hc =>
    forall_isPlain (P := fun c => c.toUpper = keyLetter c) (by decide) (o.isPlain_of_mem c hc)
  rw [o.leadingWord_eq, List.map_congr_left hkey, ← spells_eq_sameLetters hk o.isPlain_of_mem]
  rfl

theorem opensAsQuery_iff (o : Opening text) :
    opensAsQuery text = true ↔ o.Spells "SELECT" ∨ o.Spells "WITH" := by
  rw [opensAsQuery, o.leadingWord_beq (by decide), o.leadingWord_beq (by decide),
    Bool.or_eq_true_iff]
  rfl

/-- A run that nothing continues is a whole word. -/
theorem wholeWord (o : Opening text) (hne : o.run ≠ []) (hcont : ¬ o.Continued) :
    WholeWord o.lead o.run o.rest where
  ne_nil := hne
  chars := fun c hc => isWordChar_of_isPlain (o.isPlain_of_mem c hc)
  left := fun c hc => isWordChar_of_isBlank (o.blank c (List.mem_of_getLast? hc))
  right := fun c hc => Bool.eq_false_iff.2 fun hword => hcont ⟨c, hc, hword⟩

theorem occurs_of_spells (o : Opening text) (hk : k.toList.all (fun c => c.isUpper || c == '_') = true)
    (hne : k.toList ≠ []) (hspells : o.Spells k) (hcont : ¬ o.Continued) : Occurs k text := by
  have hrun : o.run ≠ [] := by
    intro hnil
    rw [Spells, hnil, sameLetters, beq_iff_eq, List.map_nil, List.map_eq_nil_iff] at hspells
    exact hne hspells
  refine ⟨o.lead, o.run, o.rest, o.parts, o.wholeWord hrun hcont, ?_⟩
  rw [spells_eq_sameLetters hk o.isPlain_of_mem]
  exact hspells

end Opening

theorem validate_eq_error {v : Violation} (h : checkWords (stripComments sql.toList) = .error v) :
    validate keys policy sql = .error v := by
  simp only [validate, h]
  rfl

/-- A statement is turned down that opens with anything but SELECT or WITH, and one that opens with the
word WITH. An accepted one opens with SELECT unless it opens with the letters of WITH and a digit or a
character beyond ASCII makes a longer word of them. -/
theorem validate_opening (keys : List ForeignKey) (policy : Policy) (sql : String)
    (o : Opening (stripComments sql.toList)) :
    (¬ o.Spells "SELECT" ∧ ¬ o.Spells "WITH" → validate keys policy sql = .error .notSelect) ∧
    (o.Spells "WITH" ∧ ¬ o.Continued → validate keys policy sql = .error .withClause) ∧
    ∀ out, validate keys policy sql = .ok out →
      (o.Spells "SELECT" ↔ ¬ (o.Spells "WITH" ∧ o.Continued)) := by
  have hopens := o.opensAsQuery_iff
  have hwith (h : o.Spells "WITH") (hcont : ¬ o.Continued) :
      validate keys policy sql = .error .withClause := by
    have hquery : opensAsQuery (stripComments sql.toList) = true := hopens.2 (.inr h)
    have hword : hasWord "WITH" (stripComments sql.toList) = true :=
      hasWord_iff_occurs.2 (o.occurs_of_spells (by decide) (by decide) h hcont)
    refine validate_eq_error ?_
    simp only [checkWords, checkOpening, checkWrites, hquery, hword, if_true]
    rfl
  refine ⟨?_, fun h => hwith h.1 h.2, ?_⟩
  · rintro ⟨hselect, hother⟩
    have hquery : ¬ opensAsQuery (stripComments sql.toList) = true := fun h =>
      (hopens.1 h).elim hselect hother
    refine validate_eq_error ?_
    simp only [checkWords, checkOpening, hquery, if_false, Bool.false_eq_true]
    rfl
  · intro out hok
    obtain ⟨hquery, -⟩ := checkWords_eq_ok.1 (validate_eq_ok.1 hok).1
    constructor
    · rintro hselect ⟨h, -⟩
      -- no run spells both words
      simp only [Opening.Spells, sameLetters, beq_iff_eq] at hselect h
      exact absurd (hselect.trans h.symm) (by decide)
    · intro hnot
      refine (hopens.1 hquery).resolve_right fun h => ?_
      by_cases hcont : o.Continued
      · exact hnot ⟨h, hcont⟩
      · rw [hwith h hcont] at hok
        contradiction

/-- A selection in small letters behind a blank, and the word WITH behind a comment. -/
theorem validate_opening_small :
    validate [] strictPolicy " select id FROM orders" = .ok "select id FROM orders LIMIT 101" ∧
      (Opening.of (stripComments " select id FROM orders".toList)).Spells "SELECT" ∧
      validate [] strictPolicy "/* x */with(x) SELECT id FROM x" = .error .withClause := by
  have hok : validate [] strictPolicy " select id FROM orders" =
      .ok "select id FROM orders LIMIT 101" := eq_ok_of_toOption (by decide +kernel)
  have hnot : ¬ (Opening.of (stripComments " select id FROM orders".toList)).Spells "WITH" :=
    Bool.eq_false_iff.1 (by decide +kernel)
  refine ⟨hok, ((validate_opening _ _ _ _).2.2 _ hok).2 fun h => hnot h.1, ?_⟩
  let o := Opening.of (stripComments "/* x */with(x) SELECT id FROM x".toList)
  have hword : o.Spells "WITH" := by
    unfold Opening.Spells
    decide +kernel
  have hcont : ¬ o.Continued := by
    rintro ⟨c, hc, hword⟩
    have hhead : o.rest.head? = some '(' := by decide +kernel
    obtain rfl : '(' = c := by simpa [hhead] using hc
    exact absurd hword (by decide)
  exact (validate_opening _ _ _ o).2.1 ⟨hword, hcont⟩

/-- A digit behind WITH, and a letter with an accent: both statements are accepted. -/
theorem opens_with_longer_word :
    let digit := "WITH1 x AS (SELECT 1) SELECT * FROM x"
    let accent := "withé SELECT * FROM x"
    (validate [] strictPolicy digit = .ok (digit ++ " LIMIT 101") ∧
      ∀ o : Opening (stripComments digit.toList), ¬ o.Spells "SELECT") ∧
    validate [] strictPolicy accent = .ok (accent ++ " LIMIT 101") ∧
      ∀ o : Opening (stripComments accent.toList), ¬ o.Spells "SELECT" := by
  have hselect (text : List Char) (h : (leadingWord text == "SELECT".toList) = false)
      (o : Opening text) : ¬ o.Spells "SELECT" := by
    rw [o.leadingWord_beq (by decide)] at h
    exact Bool.eq_false_iff.1 h
  intro digit accent
  refine ⟨⟨eq_ok_of_toOption (by decide +kernel), hselect _ (by decide +kernel)⟩,
    eq_ok_of_toOption (by decide +kernel), hselect _ (by decide +kernel)⟩

end Querent.Guard
