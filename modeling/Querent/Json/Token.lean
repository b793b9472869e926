import Querent.Decimal.Literal

/-! Tokens of JSON text.

A string whose escapes leave a surrogate without its partner is a token all the same, without a
text: whether that is an error depends on whether the string is read. -/
namespace Querent.Json

inductive Token where
  | openArray
  | closeArray
  | openObject
  | closeObject
  | colon
  | comma
  | null
  | bool (b : Bool)
  | number (l : Decimal.Literal)
  | string (s : Option String)
deriving DecidableEq

namespace Token

def hexValue? (c : Char) : Option Nat :=
  if '0' ≤ c && c ≤ '9' then some (c.toNat - '0'.toNat)
  else if 'a' ≤ c && c ≤ 'f' then some (c.toNat - 'a'.toNat + 10)
  else if 'A' ≤ c && c ≤ 'F' then some (c.toNat - 'A'.toNat + 10)
  else none

/-- The number of four hexadecimal digits, and the rest. -/
def readHex4 : List Char → Option (Nat × List Char)
  | a :: b :: c :: d :: rest => do
    let a ← hexValue? a
    let b ← hexValue? b
    let c ← hexValue? c
    let d ← hexValue? d
    some (((a * 16 + b) * 16 + c) * 16 + d, rest)
  | _ => none

def isHighSurrogate (n : Nat) : Bool := 0xd800 ≤ n && n < 0xdc00

def isLowSurrogate (n : Nat) : Bool := 0xdc00 ≤ n && n < 0xe000

/-- The character of a number in hexadecimal digits, with the escape of its partner where the
number is a leading surrogate; no character where there is no such partner. -/
def readUnits (cs : List Char) : Option (Option Char × List Char) := do
  let (n, rest) ← readHex4 cs
  if isHighSurrogate n then
    match rest with
    | '\\' :: 'u' :: more =>
      let (low, rest) ← readHex4 more
      if isLowSurrogate low then
        some (some (Char.ofNat (0x10000 + (n - 0xd800) * 0x400 + (low - 0xdc00))), rest)
      else some (none, rest)
    | _ => some (none, rest)
  else if isLowSurrogate n then some (none, rest)
  else some (some (Char.ofNat n), rest)

/-- The character of an escape, read behind its backslash, and the rest. -/
def readEscape : List Char → Option (Option Char × List Char)
  | [] => none
  | c :: cs =>
    match c with
    | '"' => some (some '"', cs)
    | '\\' => some (some '\\', cs)
    | '/' => some (some '/', cs)
    | 'b' => some (some '\x08', cs)
    | 'f' => some (some '\x0c', cs)
    | 'n' => some (some '\n', cs)
    | 'r' => some (some '\r', cs)
    | 't' => some (some '\t', cs)
    | 'u' => readUnits cs
    | _ => none

theorem readHex4_length {cs rest : List Char} {n : Nat} (h : readHex4 cs = some (n, rest)) :
    rest.length < cs.length := by
  unfold readHex4 at h
  split at h
  · simp only [Option.bind_eq_bind, Option.bind_eq_some_iff, Option.some.injEq,
      Prod.mk.injEq] at h
    obtain ⟨_, -, _, -, _, -, _, -, -, rfl⟩ := h
    simp only [List.length_cons]
    omega
  · simp at h

theorem readUnits_length {cs rest : List Char} {c : Option Char}
    (h : readUnits cs = some (c, rest)) : rest.length < cs.length := by
  unfold readUnits at h
  obtain ⟨⟨n, r⟩, hn, h⟩ := Option.bind_eq_some_iff.1 h
  have hr := readHex4_length hn
  simp only at h
  split at h
  · split at h
    · obtain ⟨⟨low, r'⟩, hl, h⟩ := Option.bind_eq_some_iff.1 h
      have hl := readHex4_length hl
      simp only [List.length_cons] at hr
      simp only at h
      split at h <;>
      · simp only [Option.some.injEq, Prod.mk.injEq] at h
        rw [← h.2]
        omega
    · simp only [Option.some.injEq, Prod.mk.injEq] at h
      exact h.2 ▸ hr
  · split at h <;>
    · simp only [Option.some.injEq, Prod.mk.injEq] at h
      exact h.2 ▸ hr

theorem readEscape_length {cs rest : List Char} {c : Option Char}
    (h : readEscape cs = some (c, rest)) : rest.length < cs.length := by
  cases cs with
  | nil => simp [readEscape] at h
  | cons e cs =>
    simp only [readEscape] at h
    split at h
    case h_9 => exact Nat.lt_succ_of_lt (readUnits_length h)
    case h_10 => simp at h
    all_goals
      simp only [Option.some.injEq, Prod.mk.injEq] at h
      rw [← h.2]
      exact Nat.lt_succ_self _

/-- The text up to the closing quote and the rest behind it. Control characters below a blank must
be escaped. -/
def readString (cs : List Char) : Option (Option (List Char) × List Char) :=
  match cs with
  | [] => none
  | c :: cs =>
    if c == '"' then some (some [], cs)
    else if c == '\\' then
      match _h : readEscape cs with
      | none => none
      | some (e, rest) =>
        match readString rest with
        | none => none
        | some (text, rest) =>
          some (match e, text with
            | some e, some text => some (e :: text)
            | _, _ => none, rest)
    else if c.val < 32 then none
    else
      match readString cs with
      | none => none
      | some (text, rest) => some (text.map (c :: ·), rest)
termination_by cs.length
decreasing_by
  · exact Nat.lt_succ_of_lt (readEscape_length ‹_›)
  · simp

theorem readString_length {cs rest : List Char} {text : Option (List Char)}
    (h : readString cs = some (text, rest)) : rest.length < cs.length := by
  fun_induction readString cs generalizing text rest with
  | case1 => simp at h
  | case2 c cs =>
    simp only [Option.some.injEq, Prod.mk.injEq] at h
    rw [← h.2]
    exact Nat.lt_succ_self _
  | case3 => simp at h
  | case4 => simp at h
  | case5 c cs _ _ e r he text' rest' hr ih =>
    simp only [Option.some.injEq, Prod.mk.injEq] at h
    have := readEscape_length he
    have := ih hr
    rw [← h.2]
    simp only [List.length_cons]
    omega
  | case6 => simp at h
  | case7 => simp at h
  | case8 c cs _ _ _ text' rest' hr ih =>
    simp only [Option.some.injEq, Prod.mk.injEq] at h
    have := ih hr
    rw [← h.2]
    simp only [List.length_cons]
    omega

/-- The digits a text opens with, at least one, and the rest. -/
def readDigits (cs : List Char) : Option (List Char × List Char) :=
  match cs.takeWhile Char.isDigit with
  | [] => none
  | ds => some (ds, cs.dropWhile Char.isDigit)

/-- The digits before the point: a zero alone, or digits that open with none. -/
def readWhole (cs : List Char) : Option (List Char × List Char) :=
  match readDigits cs with
  | some ('0' :: _ :: _, _) => none
  | r => r

/-- The digits behind a point, if there is one. -/
def readFraction (cs : List Char) : Option (Option (List Char) × List Char) :=
  match cs with
  | '.' :: cs => (readDigits cs).map fun (ds, rest) => (some ds, rest)
  | cs => some (none, cs)

/-- The exponent, if there is one. -/
def readExponent (cs : List Char) : Option (Option (Bool × List Char) × List Char) :=
  match cs with
  | c :: cs =>
    if c == 'e' || c == 'E' then
      match cs with
      | '-' :: cs => (readDigits cs).map fun (ds, rest) => (some (true, ds), rest)
      | '+' :: cs => (readDigits cs).map fun (ds, rest) => (some (false, ds), rest)
      | cs => (readDigits cs).map fun (ds, rest) => (some (false, ds), rest)
    else some (none, c :: cs)
  | [] => some (none, [])

/-- Whether a text opens with a minus sign, and the rest. -/
def readSign (cs : List Char) : Bool × List Char :=
  match cs with
  | '-' :: cs => (true, cs)
  | cs => (false, cs)

/-- A number and the rest. -/
def readNumber (cs : List Char) : Option (Decimal.Literal × List Char) := do
  let (negative, cs) := readSign cs
  let (whole, cs) ← readWhole cs
  let (fraction, cs) ← readFraction cs
  let (exponent, cs) ← readExponent cs
  some ({ negative, whole, fraction, exponent }, cs)

/-- The white space between tokens. -/
def isSpace (c : Char) : Bool := c == ' ' || c == '\n' || c == '\t' || c == '\r'

theorem readDigits_length {cs ds rest : List Char} (h : readDigits cs = some (ds, rest)) :
    rest.length < cs.length := by
  have he := congrArg List.length
    (List.takeWhile_append_dropWhile (p := Char.isDigit) (l := cs))
  simp only [List.length_append] at he
  unfold readDigits at h
  split at h
  · simp at h
  · rename_i hne
    simp only [Option.some.injEq, Prod.mk.injEq] at h
    have : (cs.takeWhile Char.isDigit).length ≠ 0 := fun h0 =>
      hne (List.length_eq_zero_iff.1 h0)
    rw [← h.2]
    omega

theorem readWhole_length {cs ds rest : List Char} (h : readWhole cs = some (ds, rest)) :
    rest.length < cs.length := by
  unfold readWhole at h
  split at h
  · simp at h
  · exact readDigits_length h

theorem readFraction_length {cs rest : List Char} {ds : Option (List Char)}
    (h : readFraction cs = some (ds, rest)) : rest.length ≤ cs.length := by
  unfold readFraction at h
  split at h
  · obtain ⟨⟨d, r⟩, hd, he⟩ := Option.map_eq_some_iff.1 h
    have := readDigits_length hd
    simp only [Prod.mk.injEq] at he
    rw [← he.2]
    simp only [List.length_cons]
    omega
  · simp only [Option.some.injEq, Prod.mk.injEq] at h
    exact Nat.le_of_eq (congrArg List.length h.2.symm)

theorem readExponent_length {cs rest : List Char} {e : Option (Bool × List Char)}
    (h : readExponent cs = some (e, rest)) : rest.length ≤ cs.length := by
  unfold readExponent at h
  split at h
  · split at h
    · split at h <;>
      · obtain ⟨⟨d, r⟩, hd, he⟩ := Option.map_eq_some_iff.1 h
        have := readDigits_length hd
        simp only [Prod.mk.injEq] at he
        rw [← he.2]
        simp only [List.length_cons] at *
        omega
    · simp only [Option.some.injEq, Prod.mk.injEq] at h
      exact Nat.le_of_eq (congrArg List.length h.2.symm)
  · simp only [Option.some.injEq, Prod.mk.injEq] at h
    exact Nat.le_of_eq (congrArg List.length h.2.symm)

theorem readSign_length (cs : List Char) : (readSign cs).2.length ≤ cs.length := by
  unfold readSign
  split <;> simp

theorem readNumber_length {cs rest : List Char} {l : Decimal.Literal}
    (h : readNumber cs = some (l, rest)) : rest.length < cs.length := by
  unfold readNumber at h
  simp only [Option.bind_eq_bind, Option.bind_eq_some_iff, Option.some.injEq, Prod.mk.injEq,
    Prod.exists] at h
  obtain ⟨ds, r₁, h₁, f, r₂, h₂, e, r₃, h₃, -, rfl⟩ := h
  have := readWhole_length h₁
  have := readFraction_length h₂
  have := readExponent_length h₃
  have := readSign_length cs
  omega

/-- The first token of a text that opens with no blank, and the rest. -/
def read (cs : List Char) : Option (Token × List Char) :=
  match cs with
  | '[' :: cs => some (openArray, cs)
  | ']' :: cs => some (closeArray, cs)
  | '{' :: cs => some (openObject, cs)
  | '}' :: cs => some (closeObject, cs)
  | ':' :: cs => some (colon, cs)
  | ',' :: cs => some (comma, cs)
  | '"' :: cs => (readString cs).map fun (s, rest) => (string (s.map String.ofList), rest)
  | 'n' :: 'u' :: 'l' :: 'l' :: cs => some (null, cs)
  | 't' :: 'r' :: 'u' :: 'e' :: cs => some (bool true, cs)
  | 'f' :: 'a' :: 'l' :: 's' :: 'e' :: cs => some (bool false, cs)
  | cs => (readNumber cs).map fun (l, rest) => (number l, rest)

theorem read_length {cs rest : List Char} {t : Token} (h : read cs = some (t, rest)) :
    rest.length < cs.length := by
  unfold read at h
  split at h
  case h_7 =>
    obtain ⟨⟨s, r⟩, hs, he⟩ := Option.map_eq_some_iff.1 h
    have := readString_length hs
    simp only [Prod.mk.injEq] at he
    rw [← he.2]
    exact Nat.lt_succ_of_lt this
  case h_11 =>
    obtain ⟨⟨l, r⟩, hl, he⟩ := Option.map_eq_some_iff.1 h
    have := readNumber_length hl
    simp only [Prod.mk.injEq] at he
    rw [← he.2]
    exact this
  all_goals
    simp only [Option.some.injEq, Prod.mk.injEq] at h
    rw [← h.2]
    simp only [List.length_cons]
    omega

/-- The tokens of a text, nothing where it holds something else. -/
def scan (cs : List Char) : Option (List Token) :=
  match cs with
  | [] => some []
  | c :: cs =>
    if isSpace c then scan cs
    else
      match _h : read (c :: cs) with
      | none => none
      | some (t, rest) => (scan rest).map (t :: ·)
termination_by cs.length
decreasing_by
  · simp
  · exact read_length ‹_›

end Token

end Querent.Json
