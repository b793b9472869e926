import Querent.Text.Property

/-! Text between double quotes, for diagnostics: what cannot be shown is written as an escape. -/
namespace Querent.Text

/-- Lower-case hexadecimal digits without leading zeros. -/
def hex (n : Nat) : String := String.ofList (Nat.toDigits 16 n)

/-- Characters that have a form of their own on a page. -/
def isPrintable (c : Char) : Bool :=
  if c.val < 128 then 32 ≤ c.val && c.val < 127 else !unprintable.contains c.toNat

/-- One character inside double quotes. -/
def escapeQuoted (c : Char) : String :=
  match c with
  | '\x00' => "\\0"
  | '\t' => "\\t"
  | '\r' => "\\r"
  | '\n' => "\\n"
  | '"' => "\\\""
  | '\\' => "\\\\"
  | c =>
    if (128 ≤ c.val && graphemeExtend.contains c.toNat) || !isPrintable c then
      "\\u\x7b" ++ hex c.toNat ++ "\x7d"
    else c.toString

/-- A text in double quotes. -/
def quoted (s : String) : String := "\"" ++ String.join (s.toList.map escapeQuoted) ++ "\""

end Querent.Text
