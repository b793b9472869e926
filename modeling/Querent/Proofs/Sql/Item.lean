import Querent.Proofs.Sql.Balanced
import Querent.Proofs.Sql.Name

/-! Items of a FROM clause as they are written with bare names, and how the item reader takes one
from the front of a text: it finds the table, its schema and its alias, and stops where the item
ends. -/
namespace Querent.Sql

open Text

/-- A table with its modifier, its schema and its alias, which may follow an AS. -/
structure TableItem (banned : List String) where
  only : Bool
  schema : Option (Name banned)
  table : Name banned
  calledAs : Option (Bool × Name banned)

/-- What can stand behind an item: the end of the text, a comma, a closing parenthesis, or a word
that is no alias. -/
inductive ItemEnd : List Char → Prop where
  | nil : ItemEnd []
  | comma {t : List Char} : ItemEnd (',' :: t)
  | close {t : List Char} : ItemEnd (' ' :: ')' :: t)
  | word {c : Char} {cs t : List Char} (opens : opensName c = true)
      (plain : ∀ d ∈ cs, isPlain d = true) (reserved : isReserved (c :: cs) = true)
      (notAs : sameLetters "AS".toList (c :: cs) = false) (border : Border t) :
      ItemEnd (' ' :: (c :: cs ++ t))

variable {banned : List String} {d : Dialect} {t : List Char}

theorem afterDot_eq_none {c : Char} {cs : List Char} (h : trimStart t = c :: cs)
    (hc : c ≠ '.') : afterDot t = none := by
  rw [afterDot, h]
  split
  · rename_i heq
    exact absurd (List.cons.inj heq).1 hc
  · rfl

private theorem skipArguments_eq_self {c : Char} {cs : List Char} (h : trimStart t = c :: cs)
    (hc : c ≠ '(') : skipArguments t = t := by
  rw [skipArguments, h]
  split
  · rename_i heq
    exact absurd (List.cons.inj heq).1 hc
  · rfl

theorem ne_of_opensName {c : Char} (h : opensName c = true) : c ≠ '.' ∧ c ≠ '(' := by
  constructor
  · rintro rfl
    exact absurd h (by decide)
  · rintro rfl
    exact absurd h (by decide)

namespace ItemEnd

theorem border (h : ItemEnd t) : Border t := by
  cases h <;> simp [isBorder, isPlain]

/-- An item ends before a word of its own, if that is reserved. -/
theorem ofKeyword {k : String} (border : Border t)
    (hk : isReserved k.toList = true ∧ sameLetters "AS".toList k.toList = false ∧
      k.toList.head?.any opensName = true ∧ k.toList.all isPlain = true) :
    ItemEnd (' ' :: (k.toList ++ t)) := by
  obtain ⟨hreserved, has, hopens, hplain⟩ := hk
  cases hs : k.toList with
  | nil => simp [hs] at hopens
  | cons c cs =>
    rw [hs] at hreserved has hopens hplain
    exact .word (by simpa using hopens) (fun d hd => List.all_eq_true.1 hplain d (by simp [hd]))
      hreserved has border

private theorem trimStart_word {c : Char} {cs : List Char} (hc : opensName c = true) :
    trimStart (' ' :: (c :: cs ++ t)) = c :: cs ++ t := by
  rw [trimStart_blank, List.cons_append, trimStart_cons (isBlank_of_isPlain (isPlain_of_opensName hc))]

theorem afterDot (h : ItemEnd t) : afterDot t = none := by
  cases h with
  | nil => rfl
  | comma => rfl
  | close => rfl
  | word hopen => exact afterDot_eq_none (trimStart_word hopen) (ne_of_opensName hopen).1

theorem skipArguments (h : ItemEnd t) : skipArguments t = t := by
  cases h with
  | nil => rfl
  | comma => rfl
  | close => rfl
  | word hopen => exact skipArguments_eq_self (trimStart_word hopen) (ne_of_opensName hopen).2

/-- No parenthesis opens behind an item. -/
theorem head?_trimStart (h : ItemEnd t) : (trimStart t).head? ≠ some '(' := by
  cases h with
  | nil => decide
  | comma => rw [trimStart_cons (by decide)]; simp
  | close => rw [trimStart_blank, trimStart_cons (by decide)]; simp
  | word hopen =>
    rw [trimStart_word hopen]
    simpa using (ne_of_opensName hopen).2

/-- No alias opens with a character that is neither a letter nor a quote mark. -/
private theorem readAlias_eq_none {c : Char} {cs : List Char} (h : trimStart t = c :: cs)
    (hc : keyLetter c ≠ 'A' ∧ opensAlias c = false ∧ isNameQuote c = false) :
    Sql.readAlias t = none := by
  obtain ⟨hletter, hopen, hquote⟩ := hc
  have has : afterAs (c :: cs) = none := by
    unfold afterAs
    split
    · rename_i heq
      rw [List.cons.injEq] at heq
      simp [spells, ← heq.1, hletter]
    · rfl
  have hname : readName opensAlias (c :: cs) = none := by simp [readName, hopen, hquote]
  rw [Sql.readAlias, h, readAliasName, has, Option.bind_none, hname]

/-- Behind an item no alias is read. -/
theorem readAlias (h : ItemEnd t) : readAlias t = none := by
  cases h with
  | nil => rfl
  | comma => exact readAlias_eq_none rfl (by decide)
  | close => exact readAlias_eq_none rfl (by decide)
  | @word c cs t hopen hplain hreserved has hborder =>
    have hall : ∀ d ∈ c :: cs, isPlain d = true := by
      intro d hd
      rcases List.mem_cons.1 hd with rfl | hd
      · exact isPlain_of_opensName hopen
      · exact hplain d hd
    have hname : readAliasName (c :: cs ++ t) = some (c :: cs, t) := by
      rw [readAliasName, afterAs_plain (by simp) hall has hborder]
      exact readName_plain (by simp [opensAlias, hopen]) hplain hborder
    rw [Sql.readAlias, trimStart_word hopen, hname]
    simp only [unquote_plain hall, hreserved, if_true]

end ItemEnd

/-- An alias as it is written behind a table. -/
def aliasText : Option (Bool × Name banned) → List Char
  | none => []
  | some (false, a) => ' ' :: a.text
  | some (true, a) => " AS ".toList ++ a.text

namespace TableItem

/-- The table's name behind its schema. -/
def path (i : TableItem banned) : List Char :=
  match i.schema with
  | some s => s.text ++ '.' :: i.table.text
  | none => i.table.text

def text (i : TableItem banned) : List Char :=
  (if i.only then "ONLY ".toList else []) ++ (i.path ++ aliasText i.calledAs)

/-- The item without its alias. -/
def front (i : TableItem banned) : List Char :=
  (if i.only then "ONLY ".toList else []) ++ i.path

theorem text_eq (i : TableItem banned) : i.text = i.front ++ aliasText i.calledAs := by
  simp [text, front]

/-- The table that an item stands for: with the schema written or the one the engine assumes, under
the alias written or its own name. -/
def ref (d : Dialect) (i : TableItem banned) : TableRef :=
  { schema := (i.schema.map fun s => .ofList s.text).or d.defaultSchema
    table := .ofList i.table.text
    calledAs := .ofList ((i.calledAs.map fun a => a.2.text).getD i.table.text) }

end TableItem

/-- The reader of aliases takes the one written and stops behind it. -/
theorem readAlias_aliasText (a : Bool × Name banned) (ht : ItemEnd t) :
    readAlias (aliasText (some a) ++ t) = some (a.2.text, t) := by
  obtain ⟨written, a⟩ := a
  have hname : readName opensAlias (a.text ++ t) = some (a.text, t) :=
    a.readName (fun c hc => by simp [opensAlias, hc]) ht.border
  have hread : readAliasName (trimStart (aliasText (some (written, a)) ++ t)) = some (a.text, t) := by
    cases written with
    | false =>
      have has : afterAs (a.text ++ t) = none :=
        afterAs_plain a.ne_nil a.forall_isPlain (a.sameLetters_eq_false (by decide)) ht.border
      rw [aliasText, List.cons_append, trimStart_blank, a.trimStart, readAliasName, has]
      exact hname
    | true =>
      have has : afterAs ('A' :: 'S' :: ' ' :: (a.text ++ t)) = some (trimStart (a.text ++ t)) :=
        rfl
      have htrim : trimStart (aliasText (some (true, a)) ++ t) =
          'A' :: 'S' :: ' ' :: (a.text ++ t) := rfl
      rw [htrim, readAliasName, has, a.trimStart, Option.bind_some, hname]
  rw [readAlias, hread]
  simp only [a.unquote, a.not_isReserved, Bool.false_eq_true, if_false]
  cases ht <;> rfl

/-- What stands behind the path of a table, up to its alias and what follows the item: nothing, or the
arguments of a table function. -/
structure Behind (calledAs : Option (Bool × Name banned)) (u t : List Char) : Prop where
  border : Border u
  afterDot : afterDot u = none
  arguments : skipArguments u = aliasText calledAs ++ t
  itemEnd : ItemEnd t

theorem behind_alias (a : Option (Bool × Name banned)) (ht : ItemEnd t) :
    Behind a (aliasText a ++ t) t := by
  match a with
  | none => exact ⟨ht.border, ht.afterDot, ht.skipArguments, ht⟩
  | some (true, a) => exact ⟨by simp [aliasText, isBorder, isPlain], rfl, rfl, ht⟩
  | some (false, a) =>
    obtain ⟨c, cs, h, hc⟩ := a.exists_cons
    have htrim : trimStart (aliasText (some (false, a)) ++ t) = c :: (cs ++ t) := by
      rw [aliasText, List.cons_append, trimStart_blank, a.trimStart, h, List.cons_append]
    exact ⟨by simp [aliasText, isBorder, isPlain], afterDot_eq_none htrim (ne_of_opensName hc).1,
      skipArguments_eq_self htrim (ne_of_opensName hc).2, ht⟩

theorem behind_arguments {s : List Char} (hs : Balanced s) (a : Option (Bool × Name banned))
    (ht : ItemEnd t) : Behind a ('(' :: (s ++ ')' :: (aliasText a ++ t))) t := by
  have hskip : skipArguments ('(' :: (s ++ ')' :: (aliasText a ++ t))) = aliasText a ++ t := by
    have hgroup : skipArguments ('(' :: (s ++ ')' :: (aliasText a ++ t))) =
        (skipGroup ('(' :: (s ++ ')' :: (aliasText a ++ t)))).getD [] := rfl
    rw [hgroup, hs.skipGroup, Option.getD_some]
  exact ⟨border_cons.2 (by decide), rfl, hskip, ht⟩

theorem aliased_aliasText (schema : Option String) (n : Name banned)
    (a : Option (Bool × Name banned)) (ht : ItemEnd t) :
    aliased schema n.text (aliasText a ++ t) =
      ({ schema, table := .ofList n.text,
         calledAs := .ofList ((a.map fun a => a.2.text).getD n.text) }, t) := by
  cases a with
  | none => rw [aliased, aliasText, List.nil_append, ht.readAlias]; rfl
  | some a => rw [aliased, readAlias_aliasText a ht]; rfl

theorem readTable_path (i : TableItem banned) {u : List Char} (h : Behind i.calledAs u t) :
    readTable d (i.path ++ u) = some (i.ref d, t) := by
  have hopen : ∀ c, opensName c = true → opensName c = true := fun _ h => h
  have htable : readName opensName (i.table.text ++ u) = some (i.table.text, u) :=
    i.table.readName hopen h.border
  cases hs : i.schema with
  | none =>
    have hpath : i.path = i.table.text := by simp [TableItem.path, hs]
    rw [hpath, readTable, htable]
    simp only [h.afterDot, Option.bind_none, i.table.unquote, i.table.not_isReserved, h.arguments,
      aliased_aliasText _ _ _ h.itemEnd, TableItem.ref, hs]
    rfl
  | some s =>
    have hpath : i.path = s.text ++ '.' :: i.table.text := by simp [TableItem.path, hs]
    have hschema : readName opensName (s.text ++ '.' :: (i.table.text ++ u)) =
        some (s.text, '.' :: (i.table.text ++ u)) := s.readName hopen (by simp [isBorder, isPlain])
    have hafter : afterDot ('.' :: (i.table.text ++ u)) = some (trimStart (i.table.text ++ u)) :=
      rfl
    rw [hpath, List.append_assoc, List.cons_append, readTable, hschema]
    simp only [hafter, i.table.trimStart, Option.bind_some, htable, i.table.unquote, s.unquote,
      h.arguments, aliased_aliasText _ _ _ h.itemEnd, TableItem.ref, hs]
    rfl

/-- No modifier stands at the front of a text that opens with another plain word. -/
theorem skipModifiers_plain {w : List Char} (hw : ∀ c ∈ w, isPlain c = true) (ht : Border t)
    (honly : spells "ONLY" w = false) (hlateral : spells "LATERAL" w = false) :
    skipModifiers (w ++ t) = w ++ t := by
  have htake : (w ++ t).takeWhile isWordChar = w :=
    takeWhile_plain (fun _ => isWordChar_of_isPlain) (fun _ => isWordChar_of_isBorder) hw ht
  have hafter : afterModifier (w ++ t) = none := by
    simp [afterModifier, htake, honly, hlateral]
  rw [skipModifiers]
  split
  · simp_all
  · rfl

theorem skipModifiers_name (n : Name banned) (ht : Border t) :
    skipModifiers (n.text ++ t) = n.text ++ t :=
  skipModifiers_plain n.forall_isPlain ht (n.spells_eq_false (by decide))
    (n.spells_eq_false (by decide))

private theorem exists_path_cons (i : TableItem banned) :
    ∃ c cs, i.path = c :: cs ∧ opensName c = true := by
  cases hs : i.schema with
  | none => simpa [TableItem.path, hs] using i.table.exists_cons
  | some s =>
    obtain ⟨c, cs, h, hc⟩ := s.exists_cons
    exact ⟨c, cs ++ '.' :: i.table.text, by simp [TableItem.path, hs, h], hc⟩

/-- No blank stands before an item. -/
theorem TableItem.trimStart_front (i : TableItem banned) :
    Text.trimStart (i.front ++ t) = i.front ++ t := by
  obtain ⟨c, cs, hcs, hc⟩ := exists_path_cons i
  cases ho : i.only with
  | true =>
    rw [TableItem.front, ho]
    rfl
  | false =>
    have htext : i.front ++ t = c :: (cs ++ t) := by simp [TableItem.front, ho, hcs]
    rw [htext, trimStart_cons (isBlank_of_isPlain (isPlain_of_opensName hc))]

theorem TableItem.trimStart (i : TableItem banned) :
    trimStart (i.text ++ t) = i.text ++ t := by
  rw [i.text_eq, List.append_assoc, i.trimStart_front]

/-- The item reader takes an item with what stands behind its path, and stops where it ends. -/
theorem readItem_behind (i : TableItem banned) {u : List Char} (h : Behind i.calledAs u t) :
    readItem d (i.front ++ u) = some (some (i.ref d), t) := by
  obtain ⟨c, cs, hcs, hc⟩ := exists_path_cons i
  have hpath : skipModifiers (i.path ++ u) = i.path ++ u := by
    cases hs : i.schema with
    | none =>
      rw [TableItem.path, hs]
      exact skipModifiers_name _ h.border
    | some s =>
      rw [TableItem.path, hs]
      simp only [List.append_assoc, List.cons_append]
      exact skipModifiers_name _ (by simp [isBorder, isPlain])
  have hskip : skipModifiers (i.front ++ u) = i.path ++ u := by
    cases ho : i.only with
    | false => simpa [TableItem.front, ho] using hpath
    | true =>
      have hfront : i.front ++ u = "ONLY ".toList ++ (i.path ++ u) := by
        simp [TableItem.front, ho]
      have hafter : afterModifier ("ONLY ".toList ++ (i.path ++ u)) =
          some (trimStart (i.path ++ u)) := rfl
      have htrim : trimStart (i.path ++ u) = i.path ++ u := by
        rw [hcs, List.cons_append, trimStart_cons (isBlank_of_isPlain (isPlain_of_opensName hc))]
      rw [hfront, skipModifiers]
      split
      · rename_i rest hrest
        rw [hafter, htrim] at hrest
        rw [← Option.some.inj hrest, hpath]
      · simp_all
  have hread := readTable_path (d := d) i h
  rw [readItem, hskip]
  rw [hcs, List.cons_append] at hread ⊢
  split
  · rename_i heq
    exact absurd (List.cons.inj heq).1 (ne_of_opensName hc).2
  · rw [hread]
    rfl

theorem readItem_text (i : TableItem banned) (ht : ItemEnd t) :
    readItem d (i.text ++ t) = some (some (i.ref d), t) := by
  rw [i.text_eq, List.append_assoc]
  exact readItem_behind i (behind_alias i.calledAs ht)

/-- A derived table with its alias is an item that names no table. -/
theorem readItem_group {s : List Char} (hs : Balanced s) (a : Name banned) (ht : ItemEnd t) :
    readItem d ('(' :: (s ++ ')' :: (aliasText (some (false, a)) ++ t))) = some (none, t) := by
  have hskip : skipModifiers ('(' :: (s ++ ')' :: (aliasText (some (false, a)) ++ t))) =
      '(' :: (s ++ ')' :: (aliasText (some (false, a)) ++ t)) :=
    skipModifiers_plain (w := []) (by simp) (by simp [isBorder, isPlain]) rfl rfl
  rw [readItem, hskip]
  simp only [hs.skipGroup, Option.map_some, readAlias_aliasText _ ht, Option.getD_some]

/-- A list is read item by item. -/
theorem readItems_of_readItem {s : List Char} {more : Bool} {ref : Option TableRef}
    (h : readItem d s = some (ref, t)) :
    readItems d more s = ref.toList ++
      if more then ((nextItem t).map (readItems d true)).getD [] else [] := by
  rw [readItems]
  split
  · rename_i hnone
    exact absurd (hnone.symm.trans h) (by simp)
  · rename_i ref' rest hsome
    obtain ⟨rfl, rfl⟩ : ref' = ref ∧ rest = t := by simpa using hsome.symm.trans h
    cases more with
    | false => rfl
    | true =>
      rw [if_pos rfl, if_pos rfl]
      split <;> rename_i heq <;> simp [heq]

end Querent.Sql
