import Querent.Proofs.Text.Plain
import Querent.Sql.FromList

/-! Texts without quote marks whose parentheses close in order. Each scanner of parentheses passes
over such a text and is left as it was. -/
namespace Querent.Sql

open Text

inductive Balanced : List Char → Prop where
  | nil : Balanced []
  | char {c : Char} (quote : isQuote c = false) (opens : c ≠ '(') (closes : c ≠ ')') : Balanced [c]
  | group {s : List Char} (inner : Balanced s) : Balanced ('(' :: (s ++ [')']))
  | append {s t : List Char} (left : Balanced s) (right : Balanced t) : Balanced (s ++ t)

variable {s t before word : List Char} {opens : List (List Char)} {depth : Nat}
  {quote : Option Char}

theorem Balanced.cons {c : Char} (hc : isQuote c = false ∧ c ≠ '(' ∧ c ≠ ')') (hs : Balanced s) :
    Balanced (c :: s) := Balanced.append (.char hc.1 hc.2.1 hc.2.2) hs

theorem Balanced.of_forall (hs : ∀ c ∈ s, isQuote c = false ∧ c ≠ '(' ∧ c ≠ ')') : Balanced s := by
  induction s with
  | nil => exact .nil
  | cons c s ih => exact .cons (hs c (by simp)) (ih fun d hd => hs d (by simp [hd]))

/-- The form in which a closed text is checked. -/
theorem Balanced.of_all (hs : s.all (fun c => !isQuote c && c != '(' && c != ')') = true) :
    Balanced s := by
  refine .of_forall fun c hc => ?_
  simpa [and_assoc] using List.all_eq_true.1 hs c hc

/-- The state of quoting behind a text. -/
def quoteAfter (quote : Option Char) (s : List Char) : Option Char := s.foldl nextQuote quote

@[simp] theorem quoteAfter_nil : quoteAfter quote [] = quote := rfl

@[simp] theorem quoteAfter_cons {c : Char} :
    quoteAfter quote (c :: s) = quoteAfter (nextQuote quote c) s := rfl

theorem quoteAfter_append : quoteAfter quote (s ++ t) = quoteAfter (quoteAfter quote s) t :=
  List.foldl_append

theorem nextQuote_none {c : Char} (hc : isQuote c = false) : nextQuote none c = none := by
  simp [nextQuote, hc]

theorem nextQuote_open {m : Char} (hm : isQuote m = true) : nextQuote none m = some m := by
  simp [nextQuote, hm]

theorem nextQuote_close {m : Char} : nextQuote (some m) m = none := by simp [nextQuote]

theorem nextQuote_inside {c m : Char} (hne : c ≠ m) : nextQuote (some m) c = some m := by
  simp [nextQuote, hne]

/-- No mark is a parenthesis. -/
theorem ne_of_isQuote {m : Char} (hm : isQuote m = true) : m ≠ '(' ∧ m ≠ ')' := by
  constructor
  all_goals
    rintro rfl
    exact absurd hm (by decide)

theorem Balanced.quoteAfter (hs : Balanced s) : quoteAfter none s = none := by
  induction hs with
  | nil => rfl
  | char quote => simp [nextQuote_none quote]
  | group inner ih =>
    rw [quoteAfter_cons, nextQuote_none (by decide), quoteAfter_append, ih]
    rfl
  | append left right ihl ihr => rw [quoteAfter_append, ihl, ihr]

/-- The open parentheses of a text in two parts: those of the first are known to the second. -/
theorem openFrom_append :
    openFrom opens quote before (s ++ t) =
      openFrom (openFrom opens quote before s) (quoteAfter quote s) (s.reverse ++ before) t := by
  induction s generalizing opens quote before with
  | nil => rfl
  | cons c s ih =>
    rw [List.cons_append]
    simp only [openFrom, quoteAfter_cons, ih, List.reverse_cons, List.append_assoc,
      List.singleton_append]

/-- A balanced text opens and closes nothing for what follows it. -/
theorem Balanced.openFrom (hs : Balanced s) :
    openFrom opens none before s = opens := by
  induction hs generalizing opens before with
  | nil => rfl
  | char quote hopen hclose => simp [Sql.openFrom, hopen, hclose]
  | group inner ih =>
    have hstep : ∀ u, Sql.openFrom opens none before ('(' :: u) =
        Sql.openFrom (before :: opens) none ('(' :: before) u := fun u => rfl
    rw [hstep, openFrom_append, ih, inner.quoteAfter]
    simp [Sql.openFrom]
  | append left right ihl ihr => rw [openFrom_append, ihl, left.quoteAfter, ihr]

/-- Inside a group a balanced text brings its end no nearer. -/
theorem Balanced.skipFrom (hs : Balanced s) :
    skipFrom (depth + 1) none (s ++ t) = skipFrom (depth + 1) none t := by
  induction hs generalizing depth t with
  | nil => rfl
  | char quote hopen hclose => simp [Sql.skipFrom, hopen, hclose, nextQuote_none quote]
  | @group s inner ih =>
    have hopen : Sql.skipFrom (depth + 1) none ('(' :: (s ++ ')' :: t)) =
        Sql.skipFrom (depth + 1 + 1) none (s ++ ')' :: t) := rfl
    have hclose : Sql.skipFrom (depth + 1 + 1) none (')' :: t) =
        Sql.skipFrom (depth + 1) none t := rfl
    rw [List.cons_append, List.append_assoc, List.singleton_append, hopen, ih, hclose]
  | append left right ihl ihr => rw [List.append_assoc, ihl, ihr]

/-- A group is skipped up to the parenthesis that closes it. -/
theorem Balanced.skipGroup (hs : Balanced s) : skipGroup ('(' :: (s ++ ')' :: t)) = some t := by
  have hopen : Sql.skipGroup ('(' :: (s ++ ')' :: t)) = Sql.skipFrom (0 + 1) none (s ++ ')' :: t) :=
    rfl
  rw [hopen, hs.skipFrom]
  rfl

/-- Inside parentheses the walk along a FROM list takes no notice of words. -/
theorem nextFrom_word_eq (word' : List Char) :
    nextFrom (depth + 1) quote word t = nextFrom (depth + 1) quote word' t := by
  induction t generalizing depth quote word word' with
  | nil => rfl
  | cons c t ih =>
    simp only [nextFrom, beq_iff_eq]
    split
    · exact ih _
    · split
      · exact ih _
      · simp

/-- Inside parentheses the walk along a FROM list passes over a balanced text. -/
theorem Balanced.nextFrom (hs : Balanced s) :
    nextFrom (depth + 1) none word (s ++ t) = nextFrom (depth + 1) none word t := by
  induction hs generalizing depth word t with
  | nil => rfl
  | @char c quote hopen hclose =>
    simp only [List.singleton_append, Sql.nextFrom, nextQuote_none quote]
    split
    · simp at *
    · split
      · exact nextFrom_word_eq _
      · simpa [hopen, hclose] using nextFrom_word_eq _
  | @group s inner ih =>
    have hopen : Sql.nextFrom (depth + 1) none word ('(' :: (s ++ ')' :: t)) =
        Sql.nextFrom (depth + 1 + 1) none [] (s ++ ')' :: t) := by
      simp [Sql.nextFrom, isLetterOrNumber]
    have hclose : Sql.nextFrom (depth + 1 + 1) none [] (')' :: t) =
        Sql.nextFrom (depth + 1) none [] t := by
      simp [Sql.nextFrom, isLetterOrNumber]
    rw [List.cons_append, List.append_assoc, List.singleton_append, hopen, ih, hclose]
    exact nextFrom_word_eq _
  | append left right ihl ihr => rw [List.append_assoc, ihl, ihr]

end Querent.Sql
