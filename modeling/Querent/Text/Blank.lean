/-! White space: which characters it is, trimming and squeezing. -/
namespace Querent.Text

/-- The twenty-five characters of the Unicode property White_Space. -/
def isBlank (c : Char) : Bool :=
  let n := c.val
  (9 ≤ n && n ≤ 13) || n == 0x20 || n == 0x85 || n == 0xa0 || n == 0x1680 ||
    (0x2000 ≤ n && n ≤ 0x200a) || n == 0x2028 || n == 0x2029 || n == 0x202f || n == 0x205f ||
    n == 0x3000

def trimStart (cs : List Char) : List Char := cs.dropWhile isBlank

def trimEnd (cs : List Char) : List Char := (cs.reverse.dropWhile isBlank).reverse

def trim (cs : List Char) : List Char := trimEnd (trimStart cs)

/-- Each run of white space becomes one space; `inside` tells that a run is already open. -/
def squeezeFrom (inside : Bool) : List Char → List Char
  | [] => []
  | c :: cs =>
    if isBlank c then
      if inside then squeezeFrom true cs else ' ' :: squeezeFrom true cs
    else c :: squeezeFrom false cs

/-- Each run of white space becomes one space. -/
def squeeze (cs : List Char) : List Char := squeezeFrom false cs

/-- Nothing but white space. -/
def isAllBlank (cs : List Char) : Bool := cs.all isBlank

theorem trimStart_length_le (cs : List Char) : (trimStart cs).length ≤ cs.length :=
  (List.dropWhile_suffix _).length_le

end Querent.Text

namespace Querent

/-- The text without white space at its ends. -/
def trimmed (s : String) : String := .ofList (Text.trim s.toList)

/-- No text, or white space alone. -/
def isBlankText (s : String) : Bool := Text.isAllBlank s.toList

end Querent
