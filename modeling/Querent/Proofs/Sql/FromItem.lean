import Querent.Proofs.Sql.Qualified
import Querent.Proofs.Sql.Stretch

/-! Items of a FROM list with all that belongs to one: its modifiers, a table with its schema and the
arguments of a table function, or a group in parentheses, and an alias with its column names. An item is
read from the front of a text up to where it ends. -/
namespace Querent.Sql

open Text

/-- ONLY or LATERAL, in any letter case. -/
structure Modifier where
  word : List Char
  spelled : (spells "ONLY" word || spells "LATERAL" word) = true

def Modifier.only : Modifier := ⟨"ONLY".toList, by decide⟩

/-- The name of a table, which may follow a schema and a dot. -/
structure TablePath where
  schema : Option Ident
  table : Ident
  latin : (schema.all (·.isLatin) && table.isLatin) = true
  /-- A reserved word is a name only behind a schema. -/
  named : (schema.isSome || !isReserved (unquote table.text)) = true
  /-- The first of the names does not pass for a modifier. -/
  unmodified : (afterModifier (schema.getD table).text).isNone = true

/-- What an item takes its rows from: a table or a table function, or a group. -/
inductive FromSource where
  | table (path : TablePath) (arguments : Option (List Char)) (closed : ∀ a ∈ arguments, Nested a)
  | group (inner : List Char) (closed : Nested inner)

/-- An alias, which may follow an AS, and the column names that may directly follow it. -/
structure Alias where
  asWord : Option (List Char)
  name : Ident
  columns : Option (List Char)
  spelled : ∀ w ∈ asWord, spells "AS" w = true
  latin : name.isLatin = true
  free : isReserved (unquote name.text) = false
  notAs : spells "AS" name.text = false
  closed : ∀ c ∈ columns, Nested c

structure FromItem where
  modifiers : List Modifier
  source : FromSource
  calledAs : Option Alias

variable {d : Dialect} {s t u v : List Char} {c : Char}

/-- Parentheses that are not there are closed. -/
theorem closed_none : ∀ s ∈ (none : Option (List Char)), Nested s := by
  simp

/-- A text in parentheses. -/
def inParens (s : List Char) : List Char := '(' :: (s ++ [')'])

def TablePath.text (p : TablePath) : List Char :=
  (p.schema.map fun s => s.text ++ ['.']).getD [] ++ p.table.text

def FromSource.text : FromSource → List Char
  | table path arguments _ => path.text ++ (arguments.map inParens).getD []
  | group inner _ => inParens inner

def Alias.text (a : Alias) : List Char :=
  ' ' :: ((a.asWord.map fun w => w ++ [' ']).getD [] ++
    (a.name.text ++ (a.columns.map inParens).getD []))

def aliasPart (a : Option Alias) : List Char := (a.map (·.text)).getD []

def modifierPart (ms : List Modifier) : List Char := ms.flatMap fun m => m.word ++ [' ']

def FromItem.text (i : FromItem) : List Char :=
  modifierPart i.modifiers ++ (i.source.text ++ aliasPart i.calledAs)

/-- The table that an item stands for, under its alias or its own name; none for a group. -/
def FromItem.ref (d : Dialect) (i : FromItem) : Option TableRef :=
  match i.source with
  | .table path _ _ => some
      { schema := (path.schema.map fun s => .ofList (unquote s.text)).or d.defaultSchema
        table := .ofList (unquote path.table.text)
        calledAs := .ofList (unquote ((i.calledAs.map (·.name)).getD path.table).text) }
  | .group _ _ => none

/-! ### Where an item ends -/

/-- What follows an item without an alias: the end, a comma, a closing parenthesis or a word that is no
alias, with white space before it or without. -/
structure Stops (t : List Char) : Prop where
  border : Border t
  next : ∃ v, ItemEnd v ∧ trimStart v = trimStart t

theorem ItemEnd.stops (h : ItemEnd t) : Stops t := ⟨h.border, t, h, rfl⟩

theorem ItemEnd.append (h : ItemEnd s) (hne : s ≠ []) (ht : Border t) : ItemEnd (s ++ t) := by
  cases h with
  | nil => exact absurd rfl hne
  | comma => exact .comma
  | close => exact .close
  | word opens plain reserved notAs border =>
    rw [List.cons_append, List.append_assoc]
    exact .word opens plain reserved notAs (border.append ht)

namespace Stops

theorem afterDot (h : Stops t) : afterDot t = none := by
  obtain ⟨v, hv, hnext⟩ := h.next
  have hdot := hv.afterDot
  unfold Sql.afterDot at hdot ⊢
  rwa [← hnext]

theorem head?_trimStart (h : Stops t) : (trimStart t).head? ≠ some '(' := by
  obtain ⟨v, hv, hnext⟩ := h.next
  rw [← hnext]
  exact hv.head?_trimStart

theorem skipArguments (h : Stops t) : skipArguments t = t := by
  rw [skipArguments_eq, if_neg h.head?_trimStart]

theorem readAlias (h : Stops t) : readAlias t = none := by
  obtain ⟨v, hv, hnext⟩ := h.next
  rw [readAlias_eq, ← hnext, ← readAlias_eq]
  exact hv.readAlias

/-- Only behind blanks does it matter what comes next. -/
theorem append_border (hs : Stops s) (hne : trimStart s ≠ []) (ht : Border t) : Stops (s ++ t) := by
  obtain ⟨v, hv, hnext⟩ := hs.next
  have hne' : trimStart v ≠ [] := by rwa [hnext]
  refine ⟨hs.border.append ht, v ++ t, hv.append ?_ ht, ?_⟩
  · rintro rfl
    exact hne' rfl
  · rw [trimStart_append_of_ne_nil hne', trimStart_append_of_ne_nil hne, hnext]

theorem append (hs : Stops s) (ht : Stops t) : Stops (s ++ t) := by
  by_cases hblank : trimStart s = []
  · refine ⟨hs.border.append ht.border, ?_⟩
    rw [trimStart_append_of_eq_nil hblank]
    exact ht.next
  · exact hs.append_border hblank ht.border

theorem head?_ne_paren (h : Stops t) : t.head? ≠ some '(' := by
  intro hhead
  obtain ⟨u, rfl⟩ := List.head?_eq_some_iff.1 hhead
  exact h.head?_trimStart rfl

end Stops

/-- An item ends in front of a text. Behind an alias any border does but a parenthesis. -/
def EndsAt (a : Option Alias) (t : List Char) : Prop :=
  match a with
  | none => Stops t
  | some _ => Border t ∧ t.head? ≠ some '('

theorem Stops.endsAt (h : Stops t) (a : Option Alias) : EndsAt a t := by
  cases a with
  | none => exact h
  | some a => exact ⟨h.border, h.head?_ne_paren⟩

theorem EndsAt.append {a : Option Alias} (hs : EndsAt a s) (ht : Stops t) : EndsAt a (s ++ t) := by
  cases a with
  | none => exact Stops.append hs ht
  | some a =>
    refine ⟨hs.1.append ht.border, ?_⟩
    cases s with
    | nil => exact ht.head?_ne_paren
    | cons c s => exact hs.2

/-! ### Names -/

namespace Ident

theorem head (i : Ident) : ∃ c cs, i.text = c :: cs ∧ isBlank c = false ∧ c ≠ '.' ∧ c ≠ '(' := by
  obtain ⟨c, cs, htext, hblank⟩ := i.exists_cons
  refine ⟨c, cs, htext, hblank, ?_⟩
  have hmark : inName c = true ∨ isNameQuote c = true := by
    cases i with
    | bare e es opens chars =>
      obtain ⟨rfl, -⟩ := List.cons.inj htext
      exact .inl (forall_inName opens chars e List.mem_cons_self)
    | quoted mark name isMark ne_nil free =>
      obtain ⟨rfl, -⟩ := List.cons.inj htext
      exact .inr isMark
  constructor
  all_goals
    rintro rfl
    exact absurd hmark (by decide)

theorem trimStart (i : Ident) : trimStart (i.text ++ t) = i.text ++ t := by
  obtain ⟨c, cs, h, hc, -⟩ := i.head
  rw [h, List.cons_append, trimStart_cons hc]

theorem readName_border (i : Ident) (h : i.isLatin = true) (ht : Border t) :
    Sql.readName opensName (i.text ++ t) = some (i.text, t) :=
  i.readName h fun _ _ c hc _ => inName_of_isBorder (ht c hc)

/-- A name is read in the place of an alias as it is elsewhere. -/
theorem readName_alias (i : Ident) (h : i.isLatin = true) (ht : Border t) :
    Sql.readName opensAlias (i.text ++ t) = some (i.text, t) := by
  rw [← i.readName_border h ht]
  cases i with
  | bare c cs opens chars =>
    have hopens : opensName c = true := h
    simp [text, Sql.readName, opensAlias, hopens]
  | quoted mark name isMark ne_nil free =>
    have hopen : opensName mark = false := opensName_of_isNameQuote isMark
    have halias : opensAlias mark = false := by
      simp only [isNameQuote, Bool.or_eq_true, beq_iff_eq] at isMark
      rcases isMark with rfl | rfl <;> decide
    simp [text, Sql.readName, hopen, halias]

/-- A name is not taken for AS if it does not spell it. -/
theorem afterAs (i : Ident) (h : spells "AS" i.text = false) (ht : Border t) :
    afterAs (i.text ++ t) = none := by
  cases i with
  | bare c cs opens chars =>
    rcases cs with _ | ⟨s, _ | ⟨b, cs⟩⟩
    · cases t with
      | nil => rfl
      | cons b t =>
        have hb : keyLetter b ≠ 'S' :=
          forall_isBorder (P := fun c => keyLetter c ≠ 'S') (by decide) (border_cons.1 ht)
        exact afterAs_cons_cons hb
    · have hspell : spells "AS" [c, s] = false := h
      cases t with
      | nil => rfl
      | cons b t => simp [text, Sql.afterAs, hspell]
    · have hb : isBlank b = false := by
        by_contra hblank
        rw [Bool.not_eq_false] at hblank
        simp [inName_of_isBlank hblank] at chars
      simp [text, Sql.afterAs, hb]
  | quoted mark name isMark ne_nil free =>
    have hmark : keyLetter mark ≠ 'A' := by
      simp only [isNameQuote, Bool.or_eq_true, beq_iff_eq] at isMark
      rcases isMark with rfl | rfl <;> decide
    rcases hrest : name ++ [mark] ++ t with _ | ⟨s, _ | ⟨b, rest⟩⟩
    · simp [text, Sql.afterAs, hrest]
    · simp [text, Sql.afterAs, hrest]
    · simp [text, Sql.afterAs, hrest, spells, hmark]

end Ident

/-! ### Aliases -/

theorem border_inParens (o : Option (List Char)) (ht : Border t) :
    Border ((o.map inParens).getD [] ++ t) := by
  cases o with
  | none => exact ht
  | some s => exact border_cons.2 (by decide)

/-- The reader of aliases takes the one written and stops behind it. -/
theorem Alias.readAlias (a : Alias) (ht : Border t) (hparen : t.head? ≠ some '(') :
    readAlias (a.text ++ t) = some (unquote a.name.text, t) := by
  obtain ⟨asWord, name, columns, spelled, latin, free, notAs, closed⟩ := a
  have hborder : Border ((columns.map inParens).getD [] ++ t) := border_inParens columns ht
  have hname := name.readName_alias latin hborder
  have hread : readAliasName (trimStart
      ((Alias.mk asWord name columns spelled latin free notAs closed).text ++ t)) =
      some (name.text, (columns.map inParens).getD [] ++ t) := by
    cases asWord with
    | none =>
      simp only [Alias.text, Option.map_none, Option.getD_none, List.nil_append, List.cons_append,
        List.append_assoc, trimStart_blank, name.trimStart, readAliasName, name.afterAs notAs hborder,
        Option.bind_none]
      exact hname
    | some w =>
      have hspell := spelled w rfl
      obtain ⟨x, y, rfl⟩ : ∃ x y, w = [x, y] := by
        rw [spells, beq_iff_eq] at hspell
        obtain ⟨x, w, rfl, -, hw⟩ := List.map_eq_cons_iff.1 hspell
        obtain ⟨y, w, rfl, -, hnil⟩ := List.map_eq_cons_iff.1 hw
        exact ⟨x, y, by rw [List.map_eq_nil_iff.1 hnil]⟩
      have hx : isBlank x = false := by
        by_contra hblank
        rw [Bool.not_eq_false] at hblank
        have hletter : keyLetter x ≠ 'A' :=
          forall_isBlank (P := fun c => keyLetter c ≠ 'A') (by decide) hblank
        simp [spells, hletter] at hspell
      have has : Sql.afterAs (x :: y :: ' ' :: (name.text ++ ((columns.map inParens).getD [] ++ t))) =
          some (name.text ++ ((columns.map inParens).getD [] ++ t)) := by
        have hblank : isBlank ' ' = true := by decide
        simp [Sql.afterAs, hspell, hblank, name.trimStart]
      simp only [Alias.text, Option.map_some, Option.getD_some, List.cons_append, List.nil_append,
        List.append_assoc, trimStart_blank, trimStart_cons hx, readAliasName, has, Option.bind_some,
        hname]
  rw [readAlias_eq, hread]
  simp only [Option.bind_some, free, Bool.false_eq_true, if_false]
  cases columns with
  | none => simp [hparen]
  | some c =>
    have hgroup : Sql.skipGroup ('(' :: (c ++ ')' :: t)) = some t := (closed c rfl).skipGroup
    simp [inParens, hgroup]

/-- An alias begins, behind blanks, with neither a dot nor a parenthesis. -/
theorem Alias.head (a : Alias) : ∃ c cs, trimStart a.text = c :: cs ∧ c ≠ '.' ∧ c ≠ '(' := by
  obtain ⟨asWord, name, columns, spelled, latin, free, notAs, closed⟩ := a
  cases asWord with
  | none =>
    obtain ⟨c, cs, hcs, hc, hne⟩ := name.head
    refine ⟨c, cs ++ (columns.map inParens).getD [], ?_, hne⟩
    simp only [Alias.text, Option.map_none, Option.getD_none, List.nil_append, trimStart_blank, hcs,
      List.cons_append, trimStart_cons hc]
  | some w =>
    have hspell := spelled w rfl
    cases w with
    | nil => exact absurd hspell (by decide)
    | cons x w =>
      have hx : keyLetter x = 'A' := by
        rw [spells, beq_iff_eq] at hspell
        exact (List.cons.inj hspell).1
      have hblank : isBlank x = false := by
        by_contra hblank
        rw [Bool.not_eq_false] at hblank
        exact forall_isBlank (P := fun c => keyLetter c ≠ 'A') (by decide) hblank hx
      refine ⟨x, w ++ [' '] ++ (name.text ++ (columns.map inParens).getD []), ?_, ?_, ?_⟩
      · simp only [Alias.text, Option.map_some, Option.getD_some, List.cons_append, trimStart_blank,
          trimStart_cons hblank]
      · rintro rfl
        exact absurd hx (by decide)
      · rintro rfl
        exact absurd hx (by decide)

/-! ### Behind the source of an item -/

section Behind

variable {a : Option Alias}

theorem border_aliasPart (h : EndsAt a t) : Border (aliasPart a ++ t) := by
  cases a with
  | none => exact h.border
  | some a => exact border_cons.2 (by decide)

theorem afterDot_aliasPart (h : EndsAt a t) : afterDot (aliasPart a ++ t) = none := by
  cases a with
  | none => exact h.afterDot
  | some a =>
    obtain ⟨c, cs, htrim, hdot, -⟩ := a.head
    have hne : trimStart a.text ≠ [] := by simp [htrim]
    have hnext : trimStart (aliasPart (some a) ++ t) = c :: (cs ++ t) := by
      rw [aliasPart, Option.map_some, Option.getD_some, trimStart_append_of_ne_nil hne, htrim,
        List.cons_append]
    exact afterDot_eq_none hnext hdot

theorem skipArguments_aliasPart (h : EndsAt a t) :
    skipArguments (aliasPart a ++ t) = aliasPart a ++ t := by
  cases a with
  | none => exact h.skipArguments
  | some a =>
    obtain ⟨c, cs, htrim, -, hopen⟩ := a.head
    have hne : trimStart a.text ≠ [] := by simp [htrim]
    rw [skipArguments_eq, if_neg]
    rw [aliasPart, Option.map_some, Option.getD_some, trimStart_append_of_ne_nil hne, htrim]
    simpa using hopen

theorem readAlias_aliasPart (h : EndsAt a t) :
    readAlias (aliasPart a ++ t) = a.map fun a => (unquote a.name.text, t) := by
  cases a with
  | none => exact h.readAlias
  | some a => exact a.readAlias h.1 h.2

theorem aliased_aliasPart (schema : Option String) (n : Ident) (h : EndsAt a t) :
    aliased schema (unquote n.text) (aliasPart a ++ t) =
      ({ schema, table := .ofList (unquote n.text),
         calledAs := .ofList (unquote ((a.map (·.name)).getD n).text) }, t) := by
  rw [aliased, readAlias_aliasPart h]
  cases a with
  | none => rfl
  | some a => rfl

end Behind

/-! ### Sources -/

/-- A table is read with its schema, and what follows is left to the readers of arguments and
aliases. -/
theorem TablePath.readTable (p : TablePath) (hu : Border u) (hdot : afterDot u = none) :
    readTable d (p.text ++ u) =
      some (aliased ((p.schema.map fun s => .ofList (unquote s.text)).or d.defaultSchema)
        (unquote p.table.text) (Sql.skipArguments u)) := by
  obtain ⟨schema, table, latin, named, unmodified⟩ := p
  rw [Bool.and_eq_true] at latin
  have htable := table.readName_border latin.2 hu
  cases schema with
  | none =>
    have hfree : isReserved (unquote table.text) = false := by simpa using named
    simp only [text, Option.map_none, Option.getD_none, List.nil_append, Sql.readTable, htable, hdot,
      Option.bind_none, hfree, Bool.false_eq_true, if_false, Option.none_or]
  | some schema =>
    have hlatin : schema.isLatin = true := by simpa using latin.1
    have hschema := schema.readName_border (t := '.' :: (table.text ++ u)) hlatin
      (border_cons.2 (by decide))
    have hafter : afterDot ('.' :: (table.text ++ u)) = some (trimStart (table.text ++ u)) := rfl
    simp only [text, Option.map_some, Option.getD_some, List.append_assoc, List.cons_append,
      List.nil_append, Sql.readTable, hschema, hafter, table.trimStart, Option.bind_some, htable,
      Option.some_or]

theorem TablePath.exists_cons (p : TablePath) :
    ∃ c cs, p.text = c :: cs ∧ isBlank c = false ∧ c ≠ '(' := by
  obtain ⟨schema, table, -⟩ := p
  cases schema with
  | none =>
    obtain ⟨c, cs, h, hc, -, hopen⟩ := table.head
    exact ⟨c, cs, by simp [text, h], hc, hopen⟩
  | some schema =>
    obtain ⟨c, cs, h, hc, -, hopen⟩ := schema.head
    exact ⟨c, _, by simp [text, h]; rfl, hc, hopen⟩

/-- No modifier stands at the front of a table. -/
theorem TablePath.afterModifier (p : TablePath) (hu : Border u) :
    afterModifier (p.text ++ u) = none := by
  obtain ⟨schema, table, -, -, unmodified⟩ := p
  have hfront (n : Ident) {v : List Char} (hn : (Sql.afterModifier n.text).isNone = true)
      (hv : Border v) : Sql.afterModifier (n.text ++ v) = none := by
    have htake := (span_append (s := n.text) (q := isWordChar)
      fun _ c hc => isWordChar_of_isBorder (hv c hc)).1
    simp only [Sql.afterModifier, htake] at hn ⊢
    split at hn
    · simp at hn
    · rw [if_neg ‹_›]
  cases schema with
  | none => exact hfront table unmodified hu
  | some schema =>
    have htext : (some schema).map (fun s => s.text ++ ['.']) = some (schema.text ++ ['.']) := rfl
    rw [text, htext, Option.getD_some, List.append_assoc, List.append_assoc]
    exact hfront schema unmodified (border_cons.2 (by decide))

namespace FromSource

theorem exists_cons (s : FromSource) : ∃ c cs, s.text = c :: cs ∧ isBlank c = false := by
  cases s with
  | table path arguments closed =>
    obtain ⟨c, cs, h, hc, -⟩ := path.exists_cons
    exact ⟨c, _, by simp [text, h]; rfl, hc⟩
  | group inner closed => exact ⟨'(', _, rfl, by decide⟩

theorem afterModifier (s : FromSource) (hu : Border u) : afterModifier (s.text ++ u) = none := by
  cases s with
  | table path arguments closed =>
    rw [text, List.append_assoc]
    exact path.afterModifier (border_inParens arguments hu)
  | group inner closed => rfl

end FromSource

/-! ### Items -/

theorem Modifier.isPlain_of_mem (m : Modifier) : ∀ c ∈ m.word, isPlain c = true := by
  rcases Bool.or_eq_true_iff.1 m.spelled with h | h
  · exact isPlain_of_spells (by decide) h
  · exact isPlain_of_spells (by decide) h

theorem Modifier.ne_nil (m : Modifier) : m.word ≠ [] := by
  intro hnil
  exact absurd (hnil ▸ m.spelled) (by decide)

/-- The modifiers in front of a text are skipped. -/
theorem skipModifiers_modifierPart (ms : List Modifier) (hs : afterModifier s = none)
    (htrim : trimStart s = s) : skipModifiers (modifierPart ms ++ s) = s ∧
      trimStart (modifierPart ms ++ s) = modifierPart ms ++ s := by
  induction ms with
  | nil => exact ⟨skipModifiers_of_none hs, htrim⟩
  | cons m ms ih =>
    have htext : modifierPart (m :: ms) ++ s = m.word ++ ' ' :: (modifierPart ms ++ s) := by
      simp [modifierPart]
    have hblank : Border (' ' :: (modifierPart ms ++ s)) := border_cons.2 (by decide)
    have htake : (m.word ++ ' ' :: (modifierPart ms ++ s)).takeWhile isWordChar = m.word :=
      takeWhile_plain (fun _ => isWordChar_of_isPlain) (fun _ => isWordChar_of_isBorder)
        m.isPlain_of_mem hblank
    have hdrop : (m.word ++ ' ' :: (modifierPart ms ++ s)).dropWhile isWordChar =
        ' ' :: (modifierPart ms ++ s) :=
      dropWhile_plain (fun _ => isWordChar_of_isPlain) (fun _ => isWordChar_of_isBorder)
        m.isPlain_of_mem hblank
    have hafter : afterModifier (m.word ++ ' ' :: (modifierPart ms ++ s)) =
        some (modifierPart ms ++ s) := by
      simp [afterModifier, htake, hdrop, m.spelled, trimStart_blank, ih.2]
    rw [htext]
    refine ⟨by rw [skipModifiers_of_some hafter, ih.1], ?_⟩
    obtain ⟨c, w, hw⟩ := List.exists_cons_of_ne_nil m.ne_nil
    have hc : isBlank c = false := isBlank_of_isPlain (m.isPlain_of_mem c (by simp [hw]))
    rw [hw, List.cons_append, trimStart_cons hc]

namespace FromItem

variable (i : FromItem)

theorem skipModifiers (hu : Border u) :
    skipModifiers (modifierPart i.modifiers ++ (i.source.text ++ u)) = i.source.text ++ u ∧
      trimStart (modifierPart i.modifiers ++ (i.source.text ++ u)) =
        modifierPart i.modifiers ++ (i.source.text ++ u) := by
  refine skipModifiers_modifierPart i.modifiers (i.source.afterModifier hu) ?_
  obtain ⟨c, cs, h, hc⟩ := i.source.exists_cons
  rw [h, List.cons_append, trimStart_cons hc]

/-- No blank stands before an item. -/
theorem trimStart (ht : EndsAt i.calledAs t) : trimStart (i.text ++ t) = i.text ++ t := by
  rw [text, List.append_assoc, List.append_assoc]
  exact (i.skipModifiers (border_aliasPart ht)).2

/-- The item reader takes an item from the front of a text and stops where it ends. -/
theorem readItem (ht : EndsAt i.calledAs t) : readItem d (i.text ++ t) = some (i.ref d, t) := by
  have hskip := (i.skipModifiers (border_aliasPart ht)).1
  rw [text, List.append_assoc, List.append_assoc, readItem_eq, hskip]
  obtain ⟨modifiers, source, calledAs⟩ := i
  simp only at ht ⊢
  cases source with
  | table path arguments closed =>
    have hparen : (path.text ++ ((arguments.map inParens).getD [] ++ (aliasPart calledAs ++ t))).head? ≠
        some '(' := by
      obtain ⟨c, cs, h, -, hopen⟩ := path.exists_cons
      simpa [h] using hopen
    have hborder := border_inParens arguments (border_aliasPart ht)
    have hdot : afterDot ((arguments.map inParens).getD [] ++ (aliasPart calledAs ++ t)) = none := by
      cases arguments with
      | none => exact afterDot_aliasPart ht
      | some a => rfl
    have hskip : skipArguments ((arguments.map inParens).getD [] ++ (aliasPart calledAs ++ t)) =
        aliasPart calledAs ++ t := by
      cases arguments with
      | none => exact skipArguments_aliasPart ht
      | some a =>
        have hgroup : skipGroup ('(' :: (a ++ ')' :: (aliasPart calledAs ++ t))) =
            some (aliasPart calledAs ++ t) := (closed a rfl).skipGroup
        have htext : ((some a).map inParens).getD [] ++ (aliasPart calledAs ++ t) =
            '(' :: (a ++ ')' :: (aliasPart calledAs ++ t)) := by simp [inParens]
        rw [htext, skipArguments_eq, trimStart_cons (by decide), List.head?_cons, if_pos rfl, hgroup,
          Option.getD_some]
    rw [FromSource.text, List.append_assoc, if_neg hparen, path.readTable hborder hdot, hskip,
      aliased_aliasPart _ _ ht]
    rfl
  | group inner closed =>
    have htext : (FromSource.group inner closed).text ++ (aliasPart calledAs ++ t) =
        '(' :: (inner ++ ')' :: (aliasPart calledAs ++ t)) := by simp [FromSource.text, inParens]
    rw [htext, List.head?_cons, if_pos rfl, closed.skipGroup, Option.map_some,
      readAlias_aliasPart ht]
    cases calledAs with
    | none => rfl
    | some a => rfl

end FromItem

end Querent.Sql
