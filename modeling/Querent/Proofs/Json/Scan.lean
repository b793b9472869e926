import Mathlib.Tactic.Common
import Querent.Json.Printer
import Querent.Json.Tree

/-! Printed JSON read token by token: its marks, its blanks and its strings, whatever text comes
behind them. -/
namespace Querent.Json

namespace Token

variable {cs rest : List Char}

theorem scan_nil : scan [] = some [] := by simp [scan]

theorem scan_space {c : Char} (h : isSpace c = true) : scan (c :: cs) = scan cs := by
  rw [scan]
  simp [h]

theorem scan_of_read {c : Char} {t : Token} (hc : isSpace c = false)
    (h : read (c :: cs) = some (t, rest)) : scan (c :: cs) = (scan rest).map (t :: ·) := by
  rw [scan]
  simp only [hc, Bool.false_eq_true, ↓reduceIte]
  split
  · simp_all
  · simp_all

theorem scan_of_read_eq_none {c : Char} (hc : isSpace c = false) (h : read (c :: cs) = none) :
    scan (c :: cs) = none := by
  rw [scan]
  simp only [hc, Bool.false_eq_true, ↓reduceIte]
  split
  · rfl
  · simp_all

@[simp] theorem scan_openArray : scan ('[' :: cs) = (scan cs).map (openArray :: ·) :=
  scan_of_read rfl rfl

@[simp] theorem scan_closeArray : scan (']' :: cs) = (scan cs).map (closeArray :: ·) :=
  scan_of_read rfl rfl

@[simp] theorem scan_openObject : scan ('\x7b' :: cs) = (scan cs).map (openObject :: ·) :=
  scan_of_read rfl rfl

@[simp] theorem scan_closeObject : scan ('\x7d' :: cs) = (scan cs).map (closeObject :: ·) :=
  scan_of_read rfl rfl

@[simp] theorem scan_colon : scan (':' :: cs) = (scan cs).map (colon :: ·) :=
  scan_of_read rfl rfl

@[simp] theorem scan_comma : scan (',' :: cs) = (scan cs).map (comma :: ·) :=
  scan_of_read rfl rfl

theorem scan_null : scan ("null".toList ++ cs) = (scan cs).map (null :: ·) := scan_of_read rfl rfl

theorem scan_true : scan ("true".toList ++ cs) = (scan cs).map (bool true :: ·) :=
  scan_of_read rfl rfl

theorem scan_false : scan ("false".toList ++ cs) = (scan cs).map (bool false :: ·) :=
  scan_of_read rfl rfl

@[simp] theorem scan_blank : scan (' ' :: cs) = scan cs := scan_space rfl

theorem scan_blanks (n : Nat) : scan (List.replicate n ' ' ++ cs) = scan cs := by
  induction n with
  | zero => rfl
  | succ n ih => exact scan_blank.trans ih

theorem toList_pushn (s : String) (c : Char) (n : Nat) :
    (s.pushn c n).toList = s.toList ++ List.replicate n c := by
  induction n with
  | zero => simp [String.pushn, Nat.repeat]
  | succ n ih =>
    rw [String.pushn] at ih ⊢
    rw [Nat.repeat, String.toList_push, ih, List.append_assoc, List.replicate_succ']

@[simp] theorem scan_newline (level : Nat) : scan ((newline level).toList ++ cs) = scan cs := by
  rw [newline, String.toList_append, toList_pushn, List.append_assoc]
  exact (scan_space rfl).trans (scan_blanks _)

/-! ### Strings -/

theorem hexValue?_digitChar : ∀ n < 16, hexValue? (Nat.digitChar n) = some n := by decide

theorem hex4_toList {n : Nat} (h : n < 32) :
    (hex4 n).toList = ['0', '0', Nat.digitChar (n / 16), Nat.digitChar (n % 16)] := by
  revert n
  decide

theorem readHex4_hex4 {n : Nat} (h : n < 32) : readHex4 ((hex4 n).toList ++ cs) = some (n, cs) := by
  have hhigh := hexValue?_digitChar (n / 16) (by omega)
  have hlow := hexValue?_digitChar (n % 16) (by omega)
  rw [hex4_toList h]
  have hzero : hexValue? '0' = some 0 := rfl
  simp [readHex4, hzero, hhigh, hlow]
  omega

theorem readUnits_hex4 {n : Nat} (h : n < 32) :
    readUnits ((hex4 n).toList ++ cs) = some (some (Char.ofNat n), cs) := by
  have hhigh : isHighSurrogate n = false := by simp [isHighSurrogate]; omega
  have hlow : isLowSurrogate n = false := by simp [isLowSurrogate]; omega
  simp [readUnits, readHex4_hex4 h, hhigh, hlow]

theorem readString_quote : readString ('"' :: cs) = some (some [], cs) := by
  rw [readString]
  rfl

theorem readString_plain {c : Char} (hquote : c ≠ '"') (hslash : c ≠ '\\') (hc : ¬c.val < 32) :
    readString (c :: cs) = (readString cs).map fun (text, rest) => (text.map (c :: ·), rest) := by
  rw [readString]
  simp only [beq_iff_eq, hquote, hslash, hc, ↓reduceIte]
  cases readString cs <;> rfl

/-- Behind a backslash stands what the escape means. -/
theorem readString_backslash {c : Char} (h : readEscape cs = some (some c, rest)) :
    readString ('\\' :: cs) =
      (readString rest).map fun (text, rest) => (text.map (c :: ·), rest) := by
  rw [readString]
  simp only [beq_iff_eq, Char.reduceEq, ↓reduceIte]
  split
  · simp_all
  · rename_i e rest' he
    obtain ⟨rfl, rfl⟩ : e = some c ∧ rest' = rest := by simp_all
    cases readString rest' with
    | none => rfl
    | some p =>
      obtain ⟨text, rest⟩ := p
      cases text <;> rfl

/-- An escaped character is read as the character it stands for. -/
theorem readString_escape (c : Char) : readString ((escape c).toList ++ cs) =
    (readString cs).map fun (text, rest) => (text.map (c :: ·), rest) := by
  unfold escape
  split
  case h_8 hquote hslash _ _ _ _ _ =>
    split
    · rename_i hlow
      have hlow : c.toNat < 32 := hlow
      have hread : readEscape ('u' :: ((hex4 c.toNat).toList ++ cs)) = some (some c, cs) := by
        rw [readEscape, readUnits_hex4 hlow, Char.ofNat_toNat]
      rw [String.toList_append]
      exact readString_backslash hread
    · rename_i hlow
      rw [show c.toString.toList = [c] from String.toList_singleton c]
      exact readString_plain hquote hslash hlow
  all_goals exact readString_backslash rfl

theorem readString_escapes (s : List Char) :
    readString (s.flatMap (fun c => (escape c).toList) ++ '"' :: rest) = some (some s, rest) := by
  induction s with
  | nil => exact readString_quote
  | cons c s ih =>
    rw [List.flatMap_cons, List.append_assoc, readString_escape, ih]
    rfl

/-- A quoted text is one token, the text itself. -/
@[simp] theorem scan_quote (s : String) : scan ((quote s).toList ++ cs) =
    (scan cs).map (string (some s) :: ·) := by
  have htext : (quote s).toList ++ cs =
      '"' :: (s.toList.flatMap (fun c => (escape c).toList) ++ '"' :: cs) := by
    simp [quote, List.flatMap_map]
  have hread : read ((quote s).toList ++ cs) = some (string (some s), cs) := by
    rw [htext, read, readString_escapes]
    simp
  rw [htext] at hread ⊢
  exact scan_of_read rfl hread

end Token

end Querent.Json
