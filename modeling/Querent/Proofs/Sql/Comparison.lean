import Querent.Proofs.Sql.Condition
import Querent.Proofs.Sql.Leads
import Querent.Proofs.Sql.Spelling
import Querent.Proofs.Text.Blank

/-! The comparisons of columns in the predicates of joins, as a reader of SQL finds them, and which
of them the guard finds.

A keyword ends a predicate only where it is one: not in quotes, not as a column behind a dot and not
as a function. The guard takes every word for what it spells. -/
namespace Querent.Sql

open Text

/-- The words of a text outside quotes, except for columns behind a dot and functions, whose
parenthesis follows at once. `dotted` tells that a dot stands before the place, blanks apart, and
`word` is the part of the current word already read, nearest first. -/
def ownWordsFrom (quote : Option Char) (dotted : Bool) (word : List Char) :
    List Char → List (List Char)
  | [] => if word.isEmpty || dotted || quote.isSome then [] else [word.reverse]
  | c :: cs =>
    if inName c then ownWordsFrom quote dotted (c :: word) cs
    else
      let rest :=
        ownWordsFrom (nextQuote quote c) (c == '.' || dotted && word.isEmpty && isBlank c) [] cs
      -- No function is called ON.
      if word.isEmpty || dotted || quote.isSome || c == '(' && !spells "ON" word.reverse then rest
      else word.reverse :: rest

def ownWords (s : List Char) : List (List Char) := ownWordsFrom none false [] s

/-- An equality of two columns outside quotes. No dot goes on with either name, no other equality
ends before it and no call follows. -/
structure Comparison (s : List Char) where
  head : List Char
  text : List Char
  after : List Char
  left : List Ident
  right : List Ident
  parts : s = head ++ (text ++ after)
  compared : Compared text left right
  outside : quoteAfter none head = none
  apart_head : Apart inName head text
  apart_after : Apart inName text after
  last : (trimEnd head).getLast?.all (fun c => c != '.' && c != '=') = true
  next : (trimStart after).head?.all (fun c => c != '.' && c != '(') = true

namespace Comparison

variable {s : List Char}

/-- The names of both columns. -/
def equality (c : Comparison s) : Equality :=
  ⟨c.left.map fun i => .ofList i.name, c.right.map fun i => .ofList i.name⟩

/-- The comparison stands in the predicate of a join: behind an ON, and no JOIN or clause keyword
has come since. -/
structure InPredicate (c : Comparison s) : Prop where
  phase : phaseFrom .outside (ownWords c.head) = .condition
  whole : ∀ w ∈ ownWords c.text, endsPredicate w = false

/-- What it takes for the guard to find the comparison: no word since the ON spells a JOIN or a
clause keyword, whether it is one or not, the names open with letters from A to Z, and the quotes
from before the ON on leave the equality reader in step. -/
structure Read (c : Comparison s) : Prop where
  phase : phaseOf c.head = .condition
  whole : ∀ w ∈ words c.text, endsPredicate w = false
  latin : ∀ i ∈ c.left ++ c.right, i.isLatin = true
  inStep : ∃ front behind, c.head = front ++ behind ∧ Apart isWordChar front behind ∧
    phaseOf front ≠ .condition ∧
      keepsStep (quoteAfter none front) (behind ++ (c.text ++ predicateText c.after)) = true

end Comparison

/-! ### Reading the comparison -/

variable {s front behind : List Char}

namespace Comparison

variable {c : Comparison s} {e : List Char}

theorem ne_nil (c : Comparison s) : c.text ≠ [] := by
  obtain ⟨cs, d, h, -⟩ := c.compared.exists_concat
  simp [h]

private theorem isQuote_of_quoteAfter {m : Char} (h : quoteAfter none front = some m) :
    isQuote m = true := by
  have hall : ∀ quote : Option Char, (∀ m ∈ quote, isQuote m = true) →
      ∀ m ∈ quoteAfter quote front, isQuote m = true := by
    clear h
    induction front with
    | nil => exact fun quote hquote => hquote
    | cons d front ih => exact fun quote hquote => ih _ (isQuote_of_nextQuote hquote)
  exact hall none (by simp) m h

/-- From a place in step with quotes on, the text before the comparison leads up to it. -/
private theorem leads (hlatin : ∀ i ∈ c.left ++ c.right, i.isLatin = true)
    (hhead : c.head = front ++ behind)
    (hstep : keepsStep (quoteAfter none front) (behind ++ (c.text ++ e)) = true) :
    Leads (quoteAfter none front) behind (c.text ++ e) where
  mark := fun _ hm => isQuote_of_quoteAfter hm
  inStep := hstep
  closed := by
    rw [← quoteAfter_append, ← hhead]
    exact c.outside
  apart := (c.apart_head.of_suffix ⟨front, hhead.symm⟩).append_right c.ne_nil
  last := fun _ _ hsuffix => last_of_trimEnd c.last (hsuffix.trans ⟨front, hhead.symm⟩)
  next := by
    obtain ⟨d, cs, htext, hd⟩ := c.compared.exists_cons fun i hi => hlatin i (by simp [hi])
    rw [htext]
    exact next_of_name hd

/-- Before what follows it in the statement, the comparison is read as an equality of its names. -/
private theorem readEquality_text (hlatin : ∀ i ∈ c.left ++ c.right, i.isLatin = true)
    (hstep : keepsStep none c.text = true) (he : e <+: c.after) :
    readEquality (c.text ++ e) = some (written c.left, written c.right, e) ∧
      keepEquality (written c.left) (written c.right) e = some c.equality := by
  have hnext : ∀ d ∈ (trimStart e).head?, d ≠ '.' ∧ d ≠ '(' := by
    intro d hd
    have hafter : d ∈ (trimStart c.after).head? := mem_head?_trimStart he hd
    simpa using (Option.all_eq_true _ _).1 c.next d hafter
  have hdot : afterDot e = none := by
    unfold afterDot
    split
    · rename_i heq
      exact absurd rfl (hnext '.' (by simp [heq])).1
    · rfl
  constructor
  · exact c.compared.readEquality (fun i hi => hlatin i (by simp [hi]))
      (fun i hi => hlatin i (by simp [hi])) (c.apart_after.of_isPrefix he) hdot
  · exact c.compared.keepEquality hstep fun d hd => (hnext d hd).2

theorem Read.exists_join (h : c.Read) : ∃ j ∈ joins s, ∃ condition, j.condition = some condition ∧
    c.equality ∈ equalities condition := by
  have hword : ∀ d, isWordChar d = true → inName d = true := fun _ => inName_of_isWordChar
  obtain ⟨front, behind, hhead, hopen, j, hj, hcond⟩ := exists_condition h.phase h.whole c.ne_nil
    (c.apart_head.mono hword) (c.apart_after.mono hword)
  obtain ⟨front', behind', hhead', hapart, hphase, hstep⟩ := h.inStep
  obtain ⟨m, rfl, rfl⟩ := hopen.exists_between (hhead.symm.trans hhead') hapart hphase
  rw [List.append_assoc, keepsStep_append, Bool.and_eq_true, ← quoteAfter_append] at hstep
  -- What is trimmed off behind the comparison makes no difference to what leads up to it.
  have hlead := (leads h.latin hhead hstep.2).of_isPrefix
    ((List.prefix_append_right_inj c.text).2 trimEnd_isPrefix)
  have hin : keepsStep none c.text = true := by
    have hall := hlead.inStep
    rw [keepsStep_append, hlead.closed, keepsStep_append, Bool.and_eq_true,
      Bool.and_eq_true] at hall
    exact hall.2.1
  have hafter : trimEnd (predicateText c.after) <+: c.after :=
    trimEnd_isPrefix.trans (upTo_isPrefix.trans upTo_isPrefix)
  obtain ⟨hread, hkeep⟩ := readEquality_text h.latin hin hafter
  obtain ⟨cs, d, htext, hd⟩ := c.compared.exists_concat
  have hsplit (e : List Char) : behind ++ (c.text ++ e) = behind ++ cs ++ d :: e := by simp [htext]
  refine ⟨j, ?_, _, hcond, ?_⟩
  · rw [c.parts]
    exact hj
  · rw [equalities, String.toList_ofList, hsplit, equalitiesIn_trim (by simpa using hd), ← hsplit]
    exact hlead.mem_equalitiesIn hread hkeep

end Comparison

/-! ### Columns with one qualifier -/

/-- An equality of two columns with one qualifier each and single blanks. -/
def pairText (a b c d : Ident) : List Char :=
  a.text ++ '.' :: (b.text ++ ' ' :: '=' :: ' ' :: (c.text ++ '.' :: d.text))

theorem compared_pairText (a b c d : Ident) : Compared (pairText a b c d) [a, b] [c, d] := by
  have hpath : ∀ i j : Ident, Path (i.text ++ ([] ++ '.' :: ([] ++ j.text))) [i, j] := fun i j =>
    .cons i (by simp) (by simp) (.one j)
  have hcolumn : ∀ i j : Ident, WrittenColumn (i.text ++ '.' :: j.text) [i, j] := fun i j =>
    ⟨hpath i j, by simp, by simp⟩
  simpa [pairText] using Compared.mk (hcolumn a b) (hcolumn c d) isBlank_of_mem_space
    isBlank_of_mem_space

/-- A comparison of such columns where everything asked of it can be decided. -/
def Comparison.ofPair (head : List Char) (a b c d : Ident) (after : List Char)
    (outside : quoteAfter none head = none := by decide)
    (apart_head : Apart inName head (pairText a b c d) := by decide)
    (apart_after : Apart inName (pairText a b c d) after := by decide)
    (last : (trimEnd head).getLast?.all (fun c => c != '.' && c != '=') = true := by
      decide)
    (next : (trimStart after).head?.all (fun c => c != '.' && c != '(') = true := by
      decide) : Comparison (head ++ (pairText a b c d ++ after)) where
  head := head
  text := pairText a b c d
  after := after
  left := [a, b]
  right := [c, d]
  parts := rfl
  compared := compared_pairText a b c d
  outside := outside
  apart_head := apart_head
  apart_after := apart_after
  last := last
  next := next

end Querent.Sql
