import Querent.Text.Property

/-! Words: maximal runs of word characters, compared without regard to letter case. -/
namespace Querent.Text

/-- Letters, marks, decimal digits, connecting punctuation and the two joining controls. -/
def isWordChar (c : Char) : Bool :=
  if c.val < 128 then c.isAlphanum || c == '_'
  else alphabetic.contains c.toNat || mark.contains c.toNat || decimalDigit.contains c.toNat ||
    connector.contains c.toNat || c == '\u200c' || c == '\u200d'

/-- Letters and numbers of every kind; marks and joining controls are not among them. -/
def isLetterOrNumber (c : Char) : Bool :=
  if c.val < 128 then c.isAlphanum
  else alphabetic.contains c.toNat || decimalDigit.contains c.toNat || otherNumber.contains c.toNat

/-- Equal up to the case of the letters A to Z. -/
def sameLetters (a b : List Char) : Bool := a.map Char.toLower == b.map Char.toLower

/-- The capital a character stands for in a keyword: a letter of A to Z in either case, the long
s and the kelvin sign. -/
def keyLetter (c : Char) : Char :=
  if c == '\u017f' then 'S' else if c == '\u212a' then 'K' else c.toUpper

/-- Whether a word spells a keyword, which is written in capitals. -/
def spells (keyword : String) (word : List Char) : Bool := word.map keyLetter == keyword.toList

/-- A whole word of a text, what stands before it (nearest first) and what follows it. -/
structure Found where
  before : List Char
  word : List Char
  after : List Char

/-- The first whole word that `p` accepts. `before` is the text already passed and `word` the
part of the current word already read, both nearest first. -/
def findFrom (p : List Char → Bool) (before word : List Char) : List Char → Option Found
  | [] => if !word.isEmpty && p word.reverse then some ⟨before, word.reverse, []⟩ else none
  | c :: cs =>
    if isWordChar c then findFrom p before (c :: word) cs
    else if !word.isEmpty && p word.reverse then some ⟨before, word.reverse, c :: cs⟩
    else findFrom p (c :: (word ++ before)) [] cs

/-- The first whole word that `p` accepts. -/
def findWord (p : List Char → Bool) (text : List Char) : Option Found := findFrom p [] [] text

/-- Whether a keyword occurs as a whole word, in any letter case. -/
def hasWord (keyword : String) (text : List Char) : Bool :=
  (findWord (spells keyword) text).isSome

/-- A found word lies in the text between what is before it and what is after it. -/
theorem findFrom_eq {p : List Char → Bool} {before word cs : List Char} {f : Found}
    (h : findFrom p before word cs = some f) :
    f.before.reverse ++ (f.word ++ f.after) = before.reverse ++ (word.reverse ++ cs) := by
  induction cs generalizing before word with
  | nil =>
    simp only [findFrom] at h
    split at h
    · obtain rfl := Option.some.inj h; rfl
    · simp at h
  | cons c cs ih =>
    simp only [findFrom] at h
    split at h
    · simpa using ih h
    · split at h
      · obtain rfl := Option.some.inj h; rfl
      · simpa using ih h

theorem findFrom_ne_nil {p : List Char → Bool} {before word cs : List Char} {f : Found}
    (h : findFrom p before word cs = some f) : f.word ≠ [] := by
  induction cs generalizing before word with
  | nil =>
    simp only [findFrom] at h
    split at h
    · obtain rfl := Option.some.inj h; simp_all
    · simp at h
  | cons c cs ih =>
    simp only [findFrom] at h
    split at h
    · exact ih h
    · split at h
      · obtain rfl := Option.some.inj h; simp_all
      · exact ih h

theorem findFrom_before_le {p : List Char → Bool} {before word cs : List Char} {f : Found}
    (h : findFrom p before word cs = some f) : before.length ≤ f.before.length := by
  induction cs generalizing before word with
  | nil =>
    simp only [findFrom] at h
    split at h
    · obtain rfl := Option.some.inj h; exact Nat.le_refl _
    · simp at h
  | cons c cs ih =>
    simp only [findFrom] at h
    split at h
    · exact ih h
    · split at h
      · obtain rfl := Option.some.inj h; exact Nat.le_refl _
      · have := ih h
        simp at this
        omega

/-- What follows a found word is shorter than the text searched. -/
theorem after_length_lt {p : List Char → Bool} {before cs : List Char} {f : Found}
    (h : findFrom p before [] cs = some f) : f.after.length < cs.length := by
  have he := congrArg List.length (findFrom_eq h)
  have hw := List.length_pos_iff.2 (findFrom_ne_nil h)
  have hb := findFrom_before_le h
  simp at he
  omega

end Querent.Text
