import Querent.Proofs.Sql.FromItem

/-! Groups in parentheses that hold items and no query, nested to any depth, and what the search for
tables finds in them: the items behind a JOIN, and neither the item that a group opens with nor those
behind its commas. -/
namespace Querent.Sql

open Text

/-- The word JOIN, in any letter case, behind the words of its kind. -/
structure JoinWord where
  lead : List Char
  word : List Char
  ne_nil : lead ≠ []
  apart : lead.getLast?.any isWordChar = false
  spelled : spells "JOIN" word = true
  closed : Nested lead
  /-- An item ends before it. -/
  stops : Stops (lead ++ word)

/-- What stands behind a joined item: a condition, common columns or nothing. -/
structure JoinRest where
  text : List Char
  closed : Nested text
  stops : Stops text

mutual

/-- An item, which may be a table, a table function or a derived table, or a group of items with its
modifiers and its alias, and with a blank inside each parenthesis or none. -/
inductive GroupItem where
  | item (i : FromItem)
  | group (modifiers : List Modifier) (padLeft : Bool) (inner : GroupItems) (padRight : Bool)
      (calledAs : Option Alias)

/-- Items with joins and commas between them. -/
inductive GroupItems where
  | one (first : GroupItem)
  | comma (items : GroupItems) (pad : Bool) (next : GroupItem)
  | join (items : GroupItems) (link : JoinWord) (next : GroupItem) (rest : JoinRest)

end

/-- A blank or nothing. -/
def padding (pad : Bool) : List Char := if pad then [' '] else []

mutual

def GroupItem.text : GroupItem → List Char
  | .item i => i.text
  | .group ms padLeft inner padRight a =>
    modifierPart ms ++ (inParens (padding padLeft ++ (inner.text ++ padding padRight)) ++ aliasPart a)

def GroupItems.text : GroupItems → List Char
  | .one first => first.text
  | .comma items pad next => items.text ++ ',' :: (padding pad ++ next.text)
  | .join items link next rest =>
    items.text ++ (link.lead ++ (link.word ++ ' ' :: (next.text ++ rest.text)))

end

mutual

/-- The items inside groups at any depth. -/
def GroupItem.leaves : GroupItem → List FromItem
  | .item i => [i]
  | .group _ _ inner _ _ => inner.leaves

def GroupItems.leaves : GroupItems → List FromItem
  | .one first => first.leaves
  | .comma items _ next => items.leaves ++ next.leaves
  | .join items _ next _ => items.leaves ++ next.leaves

end

/-- An item that is no group. -/
def GroupItem.leaf : GroupItem → List FromItem
  | .item i => [i]
  | .group .. => []

mutual

/-- The items inside a group that stand behind a JOIN. -/
def GroupItem.joined : GroupItem → List FromItem
  | .item _ => []
  | .group _ _ inner _ _ => inner.joined

def GroupItems.joined : GroupItems → List FromItem
  | .one first => first.joined
  | .comma items _ next => items.joined ++ next.joined
  | .join items _ next _ => items.joined ++ (next.leaf ++ next.joined)

end

mutual

/-- The items that a group opens with or that stand behind its commas. -/
def GroupItem.leading : GroupItem → List FromItem
  | .item _ => []
  | .group _ _ inner _ _ => inner.leading

def GroupItems.leading : GroupItems → List FromItem
  | .one first => first.leaf ++ first.leading
  | .comma items _ next => items.leading ++ (next.leaf ++ next.leading)
  | .join items _ next _ => items.leading ++ next.leading

end

variable {d : Dialect} {s t u before word : List Char} {i : FromItem} {r : TableRef}

mutual

theorem GroupItem.mem_leaves : (g : GroupItem) →
    (i ∈ g.leaves ↔ i ∈ g.leaf ∨ i ∈ g.joined ∨ i ∈ g.leading)
  | .item i => by simp [GroupItem.leaves, GroupItem.leaf, GroupItem.joined, GroupItem.leading]
  | .group ms padLeft inner padRight a => by
    simp [GroupItem.leaves, GroupItem.leaf, GroupItem.joined, GroupItem.leading, inner.mem_leaves]

theorem GroupItems.mem_leaves : (g : GroupItems) →
    (i ∈ g.leaves ↔ i ∈ g.joined ∨ i ∈ g.leading)
  | .one first => by
    simp only [GroupItems.leaves, GroupItems.joined, GroupItems.leading, first.mem_leaves,
      List.mem_append]
    exact or_left_comm
  | .comma items pad next => by
    simp only [GroupItems.leaves, GroupItems.joined, GroupItems.leading, items.mem_leaves,
      next.mem_leaves, List.mem_append]
    tauto
  | .join items link next rest => by
    simp only [GroupItems.leaves, GroupItems.joined, GroupItems.leading, items.mem_leaves,
      next.mem_leaves, List.mem_append]
    tauto

end

/-! ### Closed texts -/

theorem Nested.of_forall (hs : ∀ c ∈ s, isQuote c = false ∧ c ≠ '(' ∧ c ≠ ')') : Nested s :=
  (Balanced.of_forall hs).nested

theorem nested_plain (hs : ∀ c ∈ s, isPlain c = true) : Nested s := (Flat.ofPlain hs).balanced.nested

theorem nested_padding (pad : Bool) : Nested (padding pad) := by
  cases pad with
  | false => exact .nil
  | true => exact .char (by decide) (by decide) (by decide)

theorem nested_inParens (hs : Nested s) : Nested (inParens s) := .group hs

theorem nested_option_inParens {o : Option (List Char)} (h : ∀ s ∈ o, Nested s) :
    Nested ((o.map inParens).getD []) := by
  cases o with
  | none => exact .nil
  | some s => exact nested_inParens (h s rfl)

theorem Ident.nested (n : Ident) : Nested n.text := by
  cases n with
  | bare c cs opens chars =>
    refine .of_forall fun e he => ?_
    have hname := forall_inName opens chars e he
    refine ⟨isQuote_of_inName hname, ?_, ?_⟩
    · rintro rfl
      exact absurd hname (by decide)
    · rintro rfl
      exact absurd hname (by decide)
  | quoted mark name isMark ne_nil free => exact .quoted (isQuote_of_isNameQuote isMark) free

theorem nested_blank : Nested [' '] := nested_padding true

theorem nested_modifierPart (ms : List Modifier) : Nested (modifierPart ms) := by
  induction ms with
  | nil => exact .nil
  | cons m ms ih => exact ((nested_plain m.isPlain_of_mem).append nested_blank).append ih

theorem Alias.nested (a : Alias) : Nested a.text := by
  have hlead : Nested ((a.asWord.map fun w => w ++ [' ']).getD []) := by
    cases has : a.asWord with
    | none => exact .nil
    | some w =>
      have hspell : w.map keyLetter = "AS".toList := by
        simpa [spells] using a.spelled w has
      refine .append (.of_forall fun c hc => ?_) nested_blank
      have hletter : keyLetter c = 'A' ∨ keyLetter c = 'S' := by
        have hmem := List.mem_map_of_mem (f := keyLetter) hc
        simpa [hspell] using hmem
      have hquote : isQuote c = false :=
        isQuote_of_keyLetter (by rcases hletter with h | h <;> simp [h])
      refine ⟨hquote, ?_, ?_⟩
      · rintro rfl
        exact absurd hletter (by decide)
      · rintro rfl
        exact absurd hletter (by decide)
  exact nested_blank.append (hlead.append (a.name.nested.append (nested_option_inParens a.closed)))

theorem nested_aliasPart (a : Option Alias) : Nested (aliasPart a) := by
  cases a with
  | none => exact .nil
  | some a => exact a.nested

theorem FromItem.nested (i : FromItem) : Nested i.text := by
  obtain ⟨modifiers, source, calledAs⟩ := i
  refine (nested_modifierPart modifiers).append (.append ?_ (nested_aliasPart calledAs))
  cases source with
  | table path arguments closed =>
    refine .append ?_ (nested_option_inParens closed)
    have hdot : Nested ['.'] := .char (by decide) (by decide) (by decide)
    cases hschema : path.schema with
    | none => simpa [TablePath.text, hschema] using path.table.nested
    | some schema =>
      simpa [TablePath.text, hschema] using (schema.nested.append hdot).append path.table.nested
  | group inner closed => exact nested_inParens closed

mutual

theorem GroupItem.nested : (g : GroupItem) → Nested g.text
  | .item i => i.nested
  | .group ms padLeft inner padRight a =>
    (nested_modifierPart ms).append ((nested_inParens ((nested_padding padLeft).append
      (inner.nested.append (nested_padding padRight)))).append (nested_aliasPart a))

theorem GroupItems.nested : (g : GroupItems) → Nested g.text
  | .one first => first.nested
  | .comma items pad next =>
    have hcomma : Nested [','] := .char (by decide) (by decide) (by decide)
    items.nested.append (hcomma.append ((nested_padding pad).append next.nested))
  | .join items link next rest =>
    have hword : Nested link.word := nested_plain (isPlain_of_spells (by decide) link.spelled)
    items.nested.append (link.closed.append (hword.append (nested_blank.append
      (next.nested.append rest.closed))))

end

/-- A group is read as an item like any other. -/
def GroupItem.toItem : GroupItem → FromItem
  | .item i => i
  | .group ms padLeft inner padRight a =>
    ⟨ms, .group (padding padLeft ++ (inner.text ++ padding padRight))
      ((nested_padding padLeft).append (inner.nested.append (nested_padding padRight))), a⟩

theorem GroupItem.text_toItem (g : GroupItem) : g.toItem.text = g.text := by
  cases g <;> rfl

/-- Only an item that is no group stands for a table. -/
theorem GroupItem.ref_toItem (g : GroupItem) :
    (g.toItem.ref d).toList = g.leaf.filterMap (·.ref d) := by
  cases g with
  | item i => cases h : i.ref d <;> simp [GroupItem.toItem, GroupItem.leaf, h]
  | group ms padLeft inner padRight a => rfl

/-! ### What stands around an item -/

theorem stops_nil : Stops [] := ItemEnd.nil.stops

theorem stops_comma : Stops (',' :: t) := ItemEnd.comma.stops

theorem stops_close (pad : Bool) : Stops (padding pad ++ ')' :: t) := by
  cases pad with
  | false => exact ⟨border_cons.2 (by decide), ' ' :: ')' :: t, .close, rfl⟩
  | true => exact ItemEnd.close.stops

namespace JoinWord

variable (j : JoinWord)

theorem isPlain_of_mem : ∀ c ∈ j.word, isPlain c = true := isPlain_of_spells (by decide) j.spelled

theorem word_ne_nil : j.word ≠ [] := by
  intro hnil
  exact absurd (hnil ▸ j.spelled) (by decide)

theorem namesTables : namesTables j.word = true := by
  rw [Sql.namesTables, j.spelled, Bool.or_true]

theorem not_from : sameLetters j.word "FROM".toList = false := by
  have hspells : spells "FROM" j.word = false := by
    have hjoin := j.spelled
    rw [spells, beq_iff_eq] at hjoin
    rw [spells, hjoin]
    decide
  rw [spells_eq_sameLetters (by decide) j.isPlain_of_mem] at hspells
  rw [← hspells]
  simp only [sameLetters, Bool.beq_comm]

theorem wholeWord : WholeWord j.lead j.word (' ' :: t) := by
  refine ⟨j.word_ne_nil, fun c hc => isWordChar_of_isPlain (j.isPlain_of_mem c hc), ?_, ?_⟩
  · intro c hc
    have hapart := j.apart
    rw [Option.mem_def.1 hc] at hapart
    simpa using hapart
  · intro c hc
    obtain rfl : ' ' = c := by simpa using hc
    decide

theorem stops_append : Stops (j.lead ++ (j.word ++ ' ' :: t)) := by
  rw [← List.append_assoc]
  refine j.stops.append_border ?_ (border_cons.2 (by decide))
  intro hblank
  obtain ⟨c, cs, hword⟩ := List.exists_cons_of_ne_nil j.word_ne_nil
  have hc : isBlank c = true :=
    List.dropWhile_eq_nil_iff.1 hblank c (by simp [hword])
  rw [isBlank_of_isPlain (j.isPlain_of_mem c (by simp [hword]))] at hc
  contradiction

end JoinWord

/-! ### The items behind a JOIN -/

/-- An item directly behind a JOIN of a text. -/
def BehindJoin (i : FromItem) (s : List Char) : Prop :=
  ∃ (before : List Char) (j : JoinWord) (after : List Char),
    s = before ++ (j.lead ++ (j.word ++ ' ' :: (i.text ++ after))) ∧ EndsAt i.calledAs after

theorem BehindJoin.append_left (h : BehindJoin i s) (u : List Char) : BehindJoin i (u ++ s) := by
  obtain ⟨before, j, after, rfl, hends⟩ := h
  exact ⟨u ++ before, j, after, by simp, hends⟩

mutual

theorem GroupItem.behindJoin : (g : GroupItem) → (t : List Char) → i ∈ g.joined →
    BehindJoin i (g.text ++ t)
  | .item _, t, h => by simp [GroupItem.joined] at h
  | .group ms padLeft inner padRight a, t, h => by
    have hinner := inner.behindJoin (padding padRight ++ ')' :: (aliasPart a ++ t)) h
      (stops_close padRight)
    simpa [GroupItem.text, inParens] using
      hinner.append_left (modifierPart ms ++ ('(' :: padding padLeft))

/-- Every item of a group that stands behind a JOIN there does so in any text that holds the group. -/
theorem GroupItems.behindJoin : (g : GroupItems) → (t : List Char) → i ∈ g.joined → Stops t →
    BehindJoin i (g.text ++ t)
  | .one first, t, h, _ => first.behindJoin t h
  | .comma items pad next, t, h, _ => by
    rcases List.mem_append.1 h with h | h
    · have hitems := items.behindJoin (',' :: (padding pad ++ (next.text ++ t))) h stops_comma
      simpa [GroupItems.text] using hitems
    · simpa [GroupItems.text] using
        (next.behindJoin t h).append_left (items.text ++ ',' :: padding pad)
  | .join items link next rest, t, h, ht => by
    rcases List.mem_append.1 h with h | h
    · have hitems := items.behindJoin (link.lead ++ (link.word ++ ' ' :: (next.text ++ (rest.text ++ t))))
        h link.stops_append
      simpa [GroupItems.text] using hitems
    rcases List.mem_append.1 h with h | h
    · cases next with
      | item i' =>
        obtain rfl : i = i' := by simpa [GroupItem.leaf] using h
        exact ⟨items.text, link, rest.text ++ t, by simp [GroupItems.text, GroupItem.text],
          (rest.stops.append ht).endsAt _⟩
      | group => simp [GroupItem.leaf] at h
    · simpa [GroupItems.text] using (next.behindJoin (rest.text ++ t) h).append_left
        (items.text ++ (link.lead ++ (link.word ++ [' '])))

end

/-- The table of an item behind a JOIN is among those of the text. -/
theorem BehindJoin.mem_tables (h : BehindJoin i s) (hr : r ∈ i.ref d) : r ∈ tables d s := by
  obtain ⟨before, j, after, rfl, hends⟩ := h
  have hread : r ∈ readItems d false (trimStart (' ' :: (i.text ++ after))) := by
    rw [trimStart_blank, i.trimStart hends, readItems_of_readItem (i.readItem hends)]
    simpa using hr
  have hword : WholeWord (before ++ j.lead) j.word (' ' :: (i.text ++ after)) := by
    have hwhole : WholeWord j.lead j.word (' ' :: (i.text ++ after)) := j.wholeWord
    refine ⟨hwhole.ne_nil, hwhole.chars, fun c hc => ?_, hwhole.right⟩
    obtain ⟨e, he⟩ := Option.ne_none_iff_exists'.1 (mt List.getLast?_eq_none_iff.1 j.ne_nil)
    rw [List.getLast?_append, he] at hc
    exact hwhole.left c (he ▸ hc)
  have hfound : r ∈ tablesFrom d [] ((before ++ j.lead) ++ (j.word ++ ' ' :: (i.text ++ after))) :=
    mem_tablesFrom hword j.namesTables rfl (fun hfrom => absurd (j.not_from.symm.trans hfrom) (by decide))
      (by rwa [j.not_from])
  rwa [List.append_assoc] at hfound

/-! ### All that is found in a group -/

/-- No word of a text is one that tables are named behind. -/
def NamesNone (s : List Char) : Prop := ∀ w ∈ words s, namesTables w = false

instance (s : List Char) : Decidable (NamesNone s) :=
  inferInstanceAs (Decidable (∀ w ∈ words s, namesTables w = false))

mutual

/-- The only words of a group that tables are named behind are those of its joins. -/
def GroupItem.Quiet : GroupItem → Prop
  | .item i => NamesNone i.text
  | .group _ _ inner _ a => inner.Quiet ∧ NamesNone (aliasPart a)

def GroupItems.Quiet : GroupItems → Prop
  | .one first => first.Quiet
  | .comma items _ next => items.Quiet ∧ next.Quiet
  | .join items link next rest =>
    items.Quiet ∧ NamesNone link.lead ∧ next.Quiet ∧ NamesNone rest.text

end

mutual

def GroupItem.decideQuiet : (g : GroupItem) → Decidable g.Quiet
  | .item i => inferInstanceAs (Decidable (NamesNone i.text))
  | .group _ _ inner _ a =>
    have := inner.decideQuiet
    inferInstanceAs (Decidable (inner.Quiet ∧ NamesNone (aliasPart a)))

def GroupItems.decideQuiet : (g : GroupItems) → Decidable g.Quiet
  | .one first => first.decideQuiet
  | .comma items _ next =>
    have := items.decideQuiet
    have := next.decideQuiet
    inferInstanceAs (Decidable (items.Quiet ∧ next.Quiet))
  | .join items link next rest =>
    have := items.decideQuiet
    have := next.decideQuiet
    inferInstanceAs (Decidable
      (items.Quiet ∧ NamesNone link.lead ∧ next.Quiet ∧ NamesNone rest.text))

end

instance (g : GroupItem) : Decidable g.Quiet := g.decideQuiet

theorem NamesNone.finds (hs : NamesNone s) (ht : Border t) : Finds d before s t [] := by
  refine .of_eq (tablesFrom_congr ?_)
  simpa using findFrom_append hs fun c hc => isWordChar_of_isBorder (ht c hc)

/-- Nothing is found in characters of no word. -/
theorem finds_marks (hs : ∀ c ∈ s, isWordChar c = false) : Finds d before s t [] := by
  induction s generalizing before with
  | nil => exact .nil
  | cons c s ih =>
    obtain ⟨hc, hs⟩ := List.forall_mem_cons.1 hs
    exact Finds.append (s := [c]) (.char hc) (ih hs)

theorem isWordChar_padding (pad : Bool) : ∀ c ∈ padding pad, isWordChar c = false := by
  cases pad
  · exact List.forall_mem_nil _
  · exact List.forall_mem_singleton.2 (by decide)

theorem finds_modifierPart (ms : List Modifier) : Finds d before (modifierPart ms) t [] := by
  induction ms generalizing before with
  | nil => exact .nil
  | cons m ms ih =>
    have hnames : namesTables m.word = false := by
      have hspell : m.word.map keyLetter = "ONLY".toList ∨ m.word.map keyLetter = "LATERAL".toList := by
        simpa [spells] using m.spelled
      unfold namesTables spells
      rcases hspell with h | h <;> (rw [h]; decide)
    have hwords : NamesNone m.word := by
      intro w hw
      rw [words_word m.ne_nil fun c hc => isWordChar_of_isPlain (m.isPlain_of_mem c hc)] at hw
      rw [List.mem_singleton.1 hw]
      exact hnames
    have hblank : Border ([' '] ++ (modifierPart ms ++ t)) := border_cons.2 (by decide)
    have hmodifier : Finds d before (m.word ++ [' ']) (modifierPart ms ++ t) [] :=
      (hwords.finds hblank).append (.char (by decide))
    exact hmodifier.append ih

/-- At a JOIN its one item is found. -/
theorem JoinWord.finds (j : JoinWord) (h : NamesNone j.lead) :
    Finds d before (j.lead ++ j.word) (' ' :: t) (readItems d false (trimStart (' ' :: t))) := by
  refine .of_eq ?_
  have hblank : isBlank ' ' = true := by decide
  rw [List.append_assoc, tablesFrom_of_some (j.wholeWord.findFrom j.namesTables h), List.head?_cons,
    Option.map_some, hblank, j.not_from]
  simp

mutual

/-- What is found in an item: nothing in itself, and in a group the items that stand behind a JOIN. -/
theorem GroupItem.finds (before t : List Char) : (g : GroupItem) → g.Quiet → Stops t →
    Finds d before g.text t (g.joined.filterMap (·.ref d))
  | .item i, h, ht => NamesNone.finds h ht.border
  | .group ms padLeft inner padRight a, h, ht => by
    have hborder : Border (aliasPart a ++ t) := border_aliasPart (ht.endsAt a)
    have hopen (b u : List Char) : Finds d b ('(' :: padding padLeft) u [] :=
      Finds.append (s := ['(']) (.char (by decide)) (finds_marks (isWordChar_padding padLeft))
    have hclose (b u : List Char) : Finds d b (padding padRight ++ [')']) u [] :=
      (finds_marks (isWordChar_padding padRight)).append (.char (by decide))
    have hinner (b : List Char) : Finds d b (inner.text ++ (padding padRight ++ [')']))
        (aliasPart a ++ t) (inner.joined.filterMap (·.ref d)) := by
      have hstops : Stops ((padding padRight ++ [')']) ++ (aliasPart a ++ t)) := by
        rw [List.append_assoc]
        exact stops_close padRight
      exact (inner.finds b _ h.1 hstops).close (hclose _ _)
    have hgroup (b : List Char) : Finds d b
        (inParens (padding padLeft ++ (inner.text ++ padding padRight))) (aliasPart a ++ t)
        (inner.joined.filterMap (·.ref d)) := by
      simpa [inParens] using Finds.skip (hopen b _) (hinner _)
    exact Finds.skip (finds_modifierPart ms) ((hgroup _).close (h.2.finds ht.border))

theorem GroupItems.finds (before t : List Char) : (g : GroupItems) → g.Quiet → Stops t →
    Finds d before g.text t (g.joined.filterMap (·.ref d))
  | .one first, h, ht => first.finds before t h ht
  | .comma items pad next, h, ht => by
    have hcomma (b u : List Char) : Finds d b (',' :: padding pad) u [] :=
      Finds.append (s := [',']) (.char (by decide)) (finds_marks (isWordChar_padding pad))
    have hitems := items.finds before (',' :: padding pad ++ next.text ++ t) h.1
      (by simpa using stops_comma)
    have hnext (b : List Char) : Finds d b (',' :: padding pad ++ next.text) t
        (next.joined.filterMap (·.ref d)) := Finds.skip (hcomma b _) (next.finds _ t h.2 ht)
    simpa [GroupItems.text, GroupItems.joined] using hitems.append (hnext _)
  | .join items link next rest, h, ht => by
    obtain ⟨hitems, hlead, hnext, hrest⟩ := h
    have hstops : Stops (rest.text ++ t) := rest.stops.append ht
    have hread : readItems d false (trimStart (' ' :: (next.text ++ (rest.text ++ t)))) =
        next.leaf.filterMap (·.ref d) := by
      have hends := hstops.endsAt next.toItem.calledAs
      rw [trimStart_blank, ← next.text_toItem, next.toItem.trimStart hends,
        readItems_of_readItem (next.toItem.readItem hends), ← next.ref_toItem]
      simp
    have hword (b : List Char) : Finds d b (link.lead ++ link.word)
        (' ' :: (next.text ++ (rest.text ++ t))) (next.leaf.filterMap (·.ref d)) :=
      hread ▸ link.finds hlead
    have hbehind (b : List Char) : Finds d b (' ' :: (next.text ++ rest.text)) t
        (next.joined.filterMap (·.ref d)) :=
      Finds.skip (s := [' ']) (.char (by decide))
        ((next.finds _ (rest.text ++ t) hnext hstops).close (hrest.finds ht.border))
    have hjoin (b : List Char) : Finds d b
        ((link.lead ++ link.word) ++ ' ' :: (next.text ++ rest.text)) t
        (next.leaf.filterMap (·.ref d) ++ next.joined.filterMap (·.ref d)) :=
      Finds.append (by simpa using hword b) (hbehind _)
    have hfront := items.finds before
      ((link.lead ++ link.word) ++ ' ' :: (next.text ++ rest.text) ++ t) hitems
      (by simpa using link.stops_append)
    simpa [GroupItems.text, GroupItems.joined] using hfront.append (hjoin _)

end

end Querent.Sql
