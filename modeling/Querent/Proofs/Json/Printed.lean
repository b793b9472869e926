import Querent.Proofs.Json.Number

/-! Printed JSON read token by token: both layouts of a value have the same tokens, whatever text
comes behind them. -/
namespace Querent.Json

mutual

/-- Every number in the value is an integer of at most 64 bits or a finite float. -/
def Proper : Json → Prop
  | null => True
  | bool _ => True
  | number n => n.Proper
  | string _ => True
  | array items => ProperItems items
  | object members => ProperMembers members

def ProperItems : List Json → Prop
  | [] => True
  | v :: rest => Proper v ∧ ProperItems rest

def ProperMembers : List (String × Json) → Prop
  | [] => True
  | (_, v) :: rest => Proper v ∧ ProperMembers rest

end

mutual

/-- The tokens of a value. -/
def tokens : Json → List Token
  | null => [.null]
  | bool b => [.bool b]
  | number n => [.number n.literal]
  | string s => [.string (some s)]
  | array items => .openArray :: (tokensOfItems items ++ [.closeArray])
  | object members => .openObject :: (tokensOfMembers members ++ [.closeObject])

def tokensOfItems : List Json → List Token
  | [] => []
  | [v] => tokens v
  | v :: rest => tokens v ++ .comma :: tokensOfItems rest

def tokensOfMembers : List (String × Json) → List Token
  | [] => []
  | [(k, v)] => .string (some k) :: .colon :: tokens v
  | (k, v) :: rest => .string (some k) :: .colon :: (tokens v ++ .comma :: tokensOfMembers rest)

end

open Token (scan Ends)

mutual

/-- The text without blanks has the tokens of the value. -/
theorem scan_compact {rest : List Char} (v : Json) (hv : Proper v) (h : Ends rest) :
    scan (v.compact.toList ++ rest) = (scan rest).map (tokens v ++ ·) := by
  match v with
  | null => exact Token.scan_null
  | bool true => exact Token.scan_true
  | bool false => exact Token.scan_false
  | number n => exact Token.scan_number hv h
  | string s => exact Token.scan_quote s
  | array items =>
    have hend : Ends (']' :: rest) := by simp [Ends]
    have hitems := scan_compactItems items hv hend
    simp [compact, tokens, hitems, Option.map_map, Function.comp_def]
  | object members =>
    have hend : Ends ('\x7d' :: rest) := by simp [Ends]
    have hmembers := scan_compactMembers members hv hend
    simp [compact, tokens, hmembers, Option.map_map, Function.comp_def]

theorem scan_compactItems {rest : List Char} (vs : List Json) (hvs : ProperItems vs)
    (h : Ends rest) :
    scan ((compactItems vs).toList ++ rest) = (scan rest).map (tokensOfItems vs ++ ·) := by
  match vs with
  | [] => simp [compactItems, tokensOfItems]
  | [v] => exact scan_compact v hvs.1 h
  | v :: w :: more =>
    have hmore := scan_compactItems (w :: more) hvs.2 h
    have hcomma : Ends (',' :: ((compactItems (w :: more)).toList ++ rest)) := by simp [Ends]
    have hfirst := scan_compact v hvs.1 hcomma
    simp [compactItems, tokensOfItems, hfirst, hmore, Option.map_map, Function.comp_def]

theorem scan_compactMembers {rest : List Char} (ms : List (String × Json))
    (hms : ProperMembers ms) (h : Ends rest) :
    scan ((compactMembers ms).toList ++ rest) = (scan rest).map (tokensOfMembers ms ++ ·) := by
  match ms with
  | [] => simp [compactMembers, tokensOfMembers]
  | [(k, v)] =>
    have hvalue := scan_compact v hms.1 h
    simp [compactMembers, tokensOfMembers, hvalue, Option.map_map, Function.comp_def]
  | (k, v) :: m :: more =>
    have hmore := scan_compactMembers (m :: more) hms.2 h
    have hcomma : Ends (',' :: ((compactMembers (m :: more)).toList ++ rest)) := by simp [Ends]
    have hfirst := scan_compact v hms.1 hcomma
    simp [compactMembers, tokensOfMembers, hfirst, hmore, Option.map_map, Function.comp_def]

end

theorem ends_newline {rest : List Char} (level : Nat) :
    Ends ((newline level).toList ++ rest) := by
  rw [newline, String.toList_append]
  simp [Ends]

mutual

/-- The text with a member to a line has the same tokens. -/
theorem scan_prettyAt {rest : List Char} (level : Nat) (v : Json) (hv : Proper v)
    (h : Ends rest) :
    scan ((v.prettyAt level).toList ++ rest) = (scan rest).map (tokens v ++ ·) := by
  match v with
  | null =>
    rw [prettyAt]
    exact Token.scan_null
  | bool true =>
    rw [prettyAt]
    exact Token.scan_true
  | bool false =>
    rw [prettyAt]
    exact Token.scan_false
  | number n =>
    rw [prettyAt]
    exact Token.scan_number hv h
  | string s =>
    rw [prettyAt]
    exact Token.scan_quote s
  | array [] => simp [prettyAt, tokens, tokensOfItems, Option.map_map, Function.comp_def]
  | array (v :: more) =>
    have hend : Ends ((newline level).toList ++ ']' :: rest) := ends_newline level
    have hitems := scan_prettyItems (level + 1) (v :: more) hv hend
    simp [prettyAt, tokens, hitems, Option.map_map, Function.comp_def]
  | object [] => simp [prettyAt, tokens, tokensOfMembers, Option.map_map, Function.comp_def]
  | object (m :: more) =>
    have hend : Ends ((newline level).toList ++ '\x7d' :: rest) := ends_newline level
    have hmembers := scan_prettyMembers (level + 1) (m :: more) hv hend
    simp [prettyAt, tokens, hmembers, Option.map_map, Function.comp_def]

theorem scan_prettyItems {rest : List Char} (level : Nat) (vs : List Json)
    (hvs : ProperItems vs) (h : Ends rest) :
    scan ((prettyItems level vs).toList ++ rest) = (scan rest).map (tokensOfItems vs ++ ·) := by
  match vs with
  | [] => simp [prettyItems, tokensOfItems]
  | [v] =>
    have hvalue := scan_prettyAt level v hvs.1 h
    simp [prettyItems, tokensOfItems, hvalue]
  | v :: w :: more =>
    have hmore := scan_prettyItems level (w :: more) hvs.2 h
    have hcomma : Ends (',' :: ((prettyItems level (w :: more)).toList ++ rest)) := by simp [Ends]
    have hfirst := scan_prettyAt level v hvs.1 hcomma
    simp [prettyItems, tokensOfItems, hfirst, hmore, Option.map_map, Function.comp_def]

theorem scan_prettyMembers {rest : List Char} (level : Nat) (ms : List (String × Json))
    (hms : ProperMembers ms) (h : Ends rest) :
    scan ((prettyMembers level ms).toList ++ rest) =
      (scan rest).map (tokensOfMembers ms ++ ·) := by
  match ms with
  | [] => simp [prettyMembers, tokensOfMembers]
  | [(k, v)] =>
    have hvalue := scan_prettyAt level v hms.1 h
    simp [prettyMembers, tokensOfMembers, hvalue, Option.map_map, Function.comp_def]
  | (k, v) :: m :: more =>
    have hmore := scan_prettyMembers level (m :: more) hms.2 h
    have hcomma : Ends (',' :: ((prettyMembers level (m :: more)).toList ++ rest)) := by
      simp [Ends]
    have hfirst := scan_prettyAt level v hms.1 hcomma
    simp [prettyMembers, tokensOfMembers, hfirst, hmore, Option.map_map, Function.comp_def]

end

end Querent.Json
