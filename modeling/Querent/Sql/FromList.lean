import Querent.Catalog.Column
import Querent.Connection.Dialect
import Querent.Ordered
import Querent.Sql.Identifier
import Querent.Sql.Paren

/-! Tables a statement refers to, and which table an alias stands for. -/
namespace Querent.Sql

structure TableRef where
  /-- The schema written, or the one the engine assumes. -/
  schema : Option String
  table : String
  /-- The alias written, or the table's own name. -/
  calledAs : String
deriving DecidableEq, Repr

namespace TableRef

/-- Equal names in any letter case; a schema is equal to no missing one. -/
def sameTable (a b : TableRef) : Bool :=
  sameText a.table b.table &&
    match a.schema, b.schema with
    | some x, some y => sameText x y
    | none, none => true
    | _, _ => false

def column (t : TableRef) (name : String) : ResolvedColumn :=
  { schema := t.schema, table := t.table, column := name }

end TableRef

/-- Which table each alias stands for, under the alias in small letters. An alias that two different
tables have borne stands for none. -/
structure AliasMap where
  entries : Ordered (Option TableRef)

namespace AliasMap

/-- An alias with its letters A to Z in small. -/
def key (name : String) : String := .ofList (name.toList.map Char.toLower)

def empty : AliasMap := ⟨.empty⟩

/-- Binds the alias of a reference to its table. An alias that is bound keeps its table if this is the
same one, and else loses it for good. -/
def bind (m : AliasMap) (r : TableRef) : AliasMap :=
  match m.entries.get? (key r.calledAs) with
  | none => ⟨m.entries.put (key r.calledAs) (some r)⟩
  | some bound =>
    if bound.any fun b => !b.sameTable r then ⟨m.entries.put (key r.calledAs) none⟩ else m

/-- The aliases of some references, bound in turn. -/
def ofRefs (refs : List TableRef) : AliasMap := refs.foldl bind empty

/-- The table that an alias stands for, in any letter case. -/
def get (m : AliasMap) (name : String) : Option TableRef := (m.entries.get? (key name)).join

end AliasMap

/-- The table an alias stands for among `refs`. -/
def lookup (refs : List TableRef) (name : String) : Option TableRef := (AliasMap.ofRefs refs).get name

/-- The column that a name of two parts (alias, column) or three (schema, table, column) stands
for. Others stand for none. -/
def resolve (refs : List TableRef) : (parts : List String) → Option ResolvedColumn
  | [qualifier, column] => (lookup refs qualifier).map (·.column column)
  | [schema, table, column] => some { schema := some schema, table, column }
  | _ => none

/-! Tables named by `FROM` and `JOIN` in a statement with single blanks.

An item is `[ONLY|LATERAL] [schema.]table [[AS] alias]`, a table function or a derived table in
parentheses. A FROM list runs over its commas until a clause keyword or a parenthesis that closes
at its own level; joins and table options between its items are stepped over. -/

open Text

/-- Calls whose arguments may hold a FROM of their own. -/
def fromFunctions : List String := ["EXTRACT", "SUBSTRING", "TRIM", "OVERLAY"]

/-- Keywords that end a FROM list at its own level. -/
def listEnds : List String :=
  ["WHERE", "GROUP", "ORDER", "HAVING", "LIMIT", "OFFSET", "UNION", "INTERSECT", "EXCEPT",
    "WINDOW", "FETCH", "FOR", "INTO", "LOCK"]

/-- The word at the end of a text, both nearest first. -/
def trailingWord (before : List Char) : List Char :=
  before.takeWhile fun c => isLetterOrNumber c || c == '_'

/-- Whether a FROM opens a clause, told from the text before it (nearest first): not after
DISTINCT, and not among the arguments of a call that takes a FROM. -/
def opensClause (before : List Char) : Bool :=
  let head := trimStart before
  if sameLetters (trailingWord head).reverse "DISTINCT".toList then false
  else match innermostOpen head.reverse with
    | some callee => !isOneOf fromFunctions (trailingWord (trimStart callee)).reverse
    | none => true

/-- The text after an `ONLY` or `LATERAL` that it opens with. -/
def afterModifier (text : List Char) : Option (List Char) :=
  let word := text.takeWhile isWordChar
  if spells "ONLY" word || spells "LATERAL" word then
    some (trimStart (text.dropWhile isWordChar))
  else none

theorem afterModifier_length {text rest : List Char} (h : afterModifier text = some rest) :
    rest.length < text.length := by
  simp only [afterModifier] at h
  split at h
  · rename_i hw
    obtain rfl := Option.some.inj h
    have hl : (text.takeWhile isWordChar).length ≠ 0 := by
      intro h0
      rw [List.length_eq_zero_iff] at h0
      rw [h0] at hw
      simp [spells] at hw
    have he := congrArg List.length (List.takeWhile_append_dropWhile (p := isWordChar) (l := text))
    have ht := trimStart_length_le (text.dropWhile isWordChar)
    simp only [List.length_append] at he
    omega
  · simp at h

/-- The text without the modifiers it opens with. -/
def skipModifiers (text : List Char) : List Char :=
  match _h : afterModifier text with
  | some rest => skipModifiers rest
  | none => text
termination_by text.length
decreasing_by exact afterModifier_length ‹_›

/-- The text after the word AS and the white space behind it. -/
def afterAs (text : List Char) : Option (List Char) :=
  match text with
  | a :: s :: c :: rest =>
    if spells "AS" [a, s] && isBlank c then some (trimStart rest) else none
  | _ => none

/-- The name a text opens with, after AS if a name follows that. -/
def readAliasName (text : List Char) : Option (List Char × List Char) :=
  match (afterAs text).bind (readName opensAlias) with
  | some found => some found
  | none => readName opensAlias text

/-- The alias a text may open with, quote marks gone, and the text after it and after a list of
column names in parentheses that directly follows. -/
def readAlias (text : List Char) : Option (List Char × List Char) :=
  match readAliasName (trimStart text) with
  | none => none
  | some (name, rest) =>
    let word := unquote name
    if isReserved word then none
    else match rest with
      | '(' :: _ => some (word, (skipGroup rest).getD rest)
      | _ => some (word, rest)

theorem skipModifiers_length (text : List Char) :
    (skipModifiers text).length ≤ text.length := by
  fun_induction skipModifiers text with
  | case1 text rest h ih => exact Nat.le_trans ih (Nat.le_of_lt (afterModifier_length h))
  | case2 => exact Nat.le_refl _

theorem afterAs_length {text rest : List Char} (h : afterAs text = some rest) :
    rest.length < text.length := by
  unfold afterAs at h
  split at h
  · rename_i r
    split at h
    · have := trimStart_length_le r
      obtain rfl := Option.some.inj h
      simp only [List.length_cons]
      omega
    · simp at h
  · simp at h

theorem readAliasName_length {text name rest : List Char}
    (h : readAliasName text = some (name, rest)) : rest.length < text.length := by
  unfold readAliasName at h
  split at h
  · rename_i hb
    obtain ⟨mid, hm, hn⟩ := Option.bind_eq_some_iff.1 hb
    obtain rfl := Option.some.inj h
    exact Nat.lt_trans (readName_length hn) (afterAs_length hm)
  · exact readName_length h

theorem readAlias_length {text word rest : List Char}
    (h : readAlias text = some (word, rest)) : rest.length < text.length := by
  have ht := trimStart_length_le text
  simp only [readAlias] at h
  split at h
  · simp at h
  rename_i name after hn
  have ha := readAliasName_length hn
  split at h
  · simp at h
  split at h
  · simp only [Option.some.injEq, Prod.mk.injEq] at h
    rw [← h.2]
    exact Nat.lt_of_le_of_lt (skipGroup_getD_length _) (Nat.lt_of_lt_of_le ha ht)
  · simp only [Option.some.injEq, Prod.mk.injEq] at h
    rw [← h.2]
    omega

/-- The text after an alias, or all of it where none is read. -/
theorem readAlias_rest_le (text : List Char) :
    (((readAlias text).map (·.2)).getD text).length ≤ text.length := by
  cases h : readAlias text with
  | none => simp
  | some p => exact Nat.le_of_lt (@readAlias_length text p.1 p.2 h)

/-- The rest of a text behind the arguments of a table function, if a parenthesis opens there.
One that is never closed takes all. -/
def skipArguments (text : List Char) : List Char :=
  match trimStart text with
  | '(' :: cs => (skipGroup ('(' :: cs)).getD []
  | _ => text

/-- The table that a name with an optional schema stands for, with the alias behind it. -/
def aliased (schema : Option String) (table : List Char) (text : List Char) :
    TableRef × List Char :=
  match readAlias text with
  | some (word, rest) =>
    ({ schema, table := .ofList table, calledAs := .ofList word }, rest)
  | none => ({ schema, table := .ofList table, calledAs := .ofList table }, text)

/-- A table with its optional schema and alias at the start of a text, and the text after it. A
reserved word names no table unless a name follows it after a dot. -/
def readTable (dialect : Dialect) (text : List Char) : Option (TableRef × List Char) :=
  match readName opensName text with
  | none => none
  | some (first, rest) =>
    match (afterDot rest).bind (readName opensName) with
    | some (second, rest) =>
      some (aliased (some (.ofList (unquote first))) (unquote second) (skipArguments rest))
    | none =>
      if isReserved (unquote first) then none
      else some (aliased dialect.defaultSchema (unquote first) (skipArguments rest))

/-- The item a text opens with: the table it names, none for a derived table, and the text after
it. -/
def readItem (dialect : Dialect) (text : List Char) : Option (Option TableRef × List Char) :=
  match skipModifiers text with
  | '(' :: cs =>
    (skipGroup ('(' :: cs)).map fun rest => (none, ((readAlias rest).map (·.2)).getD rest)
  | cs => (readTable dialect cs).map fun (table, rest) => (some table, rest)

theorem skipArguments_length (text : List Char) : (skipArguments text).length ≤ text.length := by
  have ht := trimStart_length_le text
  unfold skipArguments
  split
  · rename_i cs hcs
    cases hg : skipGroup ('(' :: cs) with
    | none => simp
    | some g =>
      have := skipGroup_length hg
      rw [hcs] at ht
      simp only [Option.getD_some]
      omega
  · exact Nat.le_refl _

theorem aliased_length (schema : Option String) (table text : List Char) :
    (aliased schema table text).2.length ≤ text.length := by
  unfold aliased
  split
  · rename_i h
    exact Nat.le_of_lt (readAlias_length h)
  · exact Nat.le_refl _

theorem readTable_length {dialect : Dialect} {text rest : List Char} {table : TableRef}
    (h : readTable dialect text = some (table, rest)) : rest.length < text.length := by
  unfold readTable at h
  split at h
  · simp at h
  rename_i first rest₁ h₁
  have hr := readName_length h₁
  split at h
  · rename_i second rest₂ h₂
    obtain ⟨mid, hm, hn⟩ := Option.bind_eq_some_iff.1 h₂
    have := afterDot_length hm
    have := readName_length hn
    have hs := skipArguments_length rest₂
    have ha := congrArg (fun p => p.2.length) (Option.some.inj h)
    have hl := aliased_length (some (.ofList (unquote first))) (unquote second)
      (skipArguments rest₂)
    simp only at ha
    rw [ha] at hl
    omega
  · split at h
    · simp at h
    have hs := skipArguments_length rest₁
    have ha := congrArg (fun p => p.2.length) (Option.some.inj h)
    have hl := aliased_length dialect.defaultSchema (unquote first) (skipArguments rest₁)
    simp only at ha
    rw [ha] at hl
    omega

theorem readItem_length {dialect : Dialect} {text rest : List Char} {table : Option TableRef}
    (h : readItem dialect text = some (table, rest)) : rest.length < text.length := by
  have hm := skipModifiers_length text
  unfold readItem at h
  split at h
  · rename_i cs hcs
    obtain ⟨g, hg, he⟩ := Option.map_eq_some_iff.1 h
    have := skipGroup_length hg
    have ha := readAlias_rest_le g
    simp only [Prod.mk.injEq] at he
    rw [← he.2]
    rw [hcs] at hm
    omega
  · obtain ⟨⟨t, r⟩, ht, he⟩ := Option.map_eq_some_iff.1 h
    have := readTable_length ht
    simp only [Prod.mk.injEq] at he
    rw [← he.2]
    omega

/-- The text after the next comma of a list's own level, or nothing once the list ends. `word` is
the part of the current word already read, nearest first. -/
def nextFrom (depth : Nat) (quote : Option Char) (word : List Char) :
    List Char → Option (List Char)
  | [] => none
  | c :: cs =>
    if quote.isSome then nextFrom depth (nextQuote quote c) word cs
    else if isLetterOrNumber c || c == '_' || c == '$' then nextFrom depth none (c :: word) cs
    else if depth == 0 && !word.isEmpty && isOneOf listEnds word.reverse then none
    else if c == '(' then nextFrom (depth + 1) none [] cs
    else if c == ')' then
      match depth with
      | 0 => none
      | d + 1 => nextFrom d none [] cs
    else if c == ',' && depth == 0 then some (trimStart cs)
    else nextFrom depth (nextQuote none c) [] cs

/-- The text after the next comma of the FROM list, or nothing once the list ends. -/
def nextItem (text : List Char) : Option (List Char) := nextFrom 0 none [] text

theorem nextFrom_length {depth : Nat} {quote : Option Char} {word text rest : List Char}
    (h : nextFrom depth quote word text = some rest) : rest.length < text.length := by
  induction text generalizing depth quote word with
  | nil => simp [nextFrom] at h
  | cons c cs ih =>
    simp only [nextFrom] at h
    split at h
    · exact Nat.lt_succ_of_lt (ih h)
    split at h
    · exact Nat.lt_succ_of_lt (ih h)
    split at h
    · simp at h
    split at h
    · exact Nat.lt_succ_of_lt (ih h)
    split at h
    · split at h
      · simp at h
      · exact Nat.lt_succ_of_lt (ih h)
    split at h
    · obtain rfl := Option.some.inj h
      exact Nat.lt_succ_of_le (trimStart_length_le cs)
    · exact Nat.lt_succ_of_lt (ih h)

/-- The tables of a FROM list, or of the one item after JOIN when `more` is false. -/
def readItems (dialect : Dialect) (more : Bool) (text : List Char) : List TableRef :=
  match _h : readItem dialect text with
  | none => []
  | some (ref, rest) =>
    ref.toList ++
      if more then
        match _h' : nextItem rest with
        | some next => readItems dialect more next
        | none => []
      else []
termination_by text.length
decreasing_by exact Nat.lt_trans (nextFrom_length ‹_›) (readItem_length ‹_›)

/-- Words that name a table, each with white space behind it: every FROM and JOIN of a text with
the text before it, nearest first. -/
def tablesFrom (dialect : Dialect) (before text : List Char) : List TableRef :=
  match _h : findFrom (fun w => spells "FROM" w || spells "JOIN" w) before [] text with
  | none => []
  | some found =>
    let isFrom := sameLetters found.word "FROM".toList
    let here :=
      if (found.after.head?.map isBlank).getD false && (!isFrom || opensClause found.before) then
        readItems dialect isFrom (trimStart found.after)
      else []
    here ++ tablesFrom dialect (found.word.reverse ++ found.before) found.after
termination_by text.length
decreasing_by exact after_length_lt ‹_›

/-- Every table reference of a statement, in the order of the words FROM and JOIN. -/
def tables (dialect : Dialect) (sql : List Char) : List TableRef := tablesFrom dialect [] sql

end Querent.Sql
