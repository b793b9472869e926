import Querent.Text.Blank

/-! Parentheses outside quoted text. -/
namespace Querent.Sql

/-- The marks that open quoted text; the same mark closes it. -/
def isQuote (c : Char) : Bool := c == '\'' || c == '"' || c == '`'

/-- The state of quoting after a character. -/
def nextQuote (quote : Option Char) (c : Char) : Option Char :=
  match quote with
  | some q => if c == q then none else some q
  | none => if isQuote c then some c else none

/-- The texts before the parentheses that are open at the end, innermost first and each nearest
first. `before` is the text already passed. -/
def openFrom (opens : List (List Char)) (quote : Option Char) (before : List Char) :
    List Char → List (List Char)
  | [] => opens
  | c :: cs =>
    let opens' :=
      if quote.isSome then opens
      else if c == '(' then before :: opens
      else if c == ')' then opens.tail
      else opens
    openFrom opens' (nextQuote quote c) (c :: before) cs

/-- The text before the last parenthesis still open at the end of `text`, nearest first. -/
def innermostOpen (text : List Char) : Option (List Char) := (openFrom [] none [] text).head?

/-- The text after the parenthesis that closes the group opened `depth` levels up. -/
def skipFrom (depth : Nat) (quote : Option Char) : List Char → Option (List Char)
  | [] => none
  | c :: cs =>
    if quote.isNone && c == '(' then skipFrom (depth + 1) none cs
    else if quote.isNone && c == ')' then
      match depth with
      | 0 => none
      | 1 => some cs
      | d + 2 => skipFrom (d + 1) none cs
    else skipFrom depth (nextQuote quote c) cs

/-- The text after the parenthesised group that a text opens with. -/
def skipGroup (text : List Char) : Option (List Char) := skipFrom 0 none text

theorem skipFrom_length {depth : Nat} {quote : Option Char} {text rest : List Char}
    (h : skipFrom depth quote text = some rest) : rest.length < text.length := by
  induction text generalizing depth quote with
  | nil => simp [skipFrom] at h
  | cons c cs ih =>
    simp only [skipFrom] at h
    split at h
    · exact Nat.lt_succ_of_lt (ih h)
    · split at h
      · split at h
        · simp at h
        · obtain rfl := Option.some.inj h; simp
        · exact Nat.lt_succ_of_lt (ih h)
      · exact Nat.lt_succ_of_lt (ih h)

theorem skipGroup_length {text rest : List Char} (h : skipGroup text = some rest) :
    rest.length < text.length :=
  skipFrom_length h

theorem skipGroup_getD_length (text : List Char) :
    ((skipGroup text).getD text).length ≤ text.length := by
  cases h : skipGroup text with
  | none => exact Nat.le_refl _
  | some rest => exact Nat.le_of_lt (skipGroup_length h)

end Querent.Sql
