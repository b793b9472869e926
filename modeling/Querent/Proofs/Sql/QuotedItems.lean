import Querent.Proofs.Sql.Clause
import Querent.Proofs.Sql.Ident
import Querent.Proofs.Sql.Lower

/-! FROM lists whose names are bare or in quotes, and how they are read: item by item, up to the first
that is taken for a word of the language. -/
namespace Querent.Sql

open Text

/-- A name of ASCII that is no reserved word, or in quotes any text without the marks that quote
names. -/
inductive ListName where
  | bare (c : Char) (cs : List Char) (opens : opensName c = true) (plain : cs.all isPlain = true)
      (free : isReserved (c :: cs) = false)
  | quoted (mark : Char) (name : List Char) (isMark : isNameQuote mark = true) (ne_nil : name ≠ [])
      (free : (name.all fun c => !isNameQuote c) = true)

variable {d : Dialect} {before s t u : List Char} {m : Char}

namespace ListName

theorem opens_bare {c : Char} (h : opensName c = true) : (inName c && !c.isDigit) = true := by
  have hdigit : c.isDigit = false :=
    Text.forall_isPlain (P := fun c => opensName c = true → c.isDigit = false) (by decide)
      (isPlain_of_opensName h) h
  simp [inName_of_opensName h, hdigit]

def ident : ListName → Ident
  | bare c cs opens plain _ =>
    .bare c cs (opens_bare opens) (List.all_eq_true.2 fun d hd =>
      inName_of_isPlain (List.all_eq_true.1 plain d hd))
  | quoted mark name isMark ne_nil free =>
    .quoted mark name isMark ne_nil fun hmem => by
      have hmark := List.all_eq_true.1 free mark hmem
      simp [isMark] at hmark

/-- The name as it is written. -/
def text (n : ListName) : List Char := n.ident.text

/-- The name without its quotes. -/
def name (n : ListName) : List Char := n.ident.name

theorem forall_isPlain {c : Char} {cs : List Char} (opens : opensName c = true)
    (plain : cs.all isPlain = true) : ∀ d ∈ c :: cs, isPlain d = true :=
  List.forall_mem_cons.2 ⟨isPlain_of_opensName opens, List.all_eq_true.1 plain⟩

theorem exists_cons (n : ListName) :
    ∃ c cs, n.text = c :: cs ∧ isBlank c = false ∧ c ≠ '.' ∧ c ≠ '(' := by
  cases n with
  | bare c cs opens plain free =>
    exact ⟨c, cs, rfl, isBlank_of_isPlain (isPlain_of_opensName opens), ne_of_opensName opens⟩
  | quoted mark name isMark ne_nil free =>
    refine ⟨mark, _, rfl, isBlank_of_isNameQuote isMark, ?_⟩
    constructor <;> (rintro rfl; exact absurd isMark (by decide))

theorem trimStart (n : ListName) : trimStart (n.text ++ t) = n.text ++ t := by
  obtain ⟨c, cs, h, hc, -⟩ := n.exists_cons
  rw [h, List.cons_append, trimStart_cons hc]

theorem readName (n : ListName) (ht : Border t) :
    readName opensName (n.text ++ t) = some (n.text, t) := by
  have hlatin : n.ident.isLatin = true := by
    cases n with
    | bare c cs opens plain free => exact opens
    | quoted => rfl
  exact n.ident.readName hlatin fun _ _ c hc _ => inName_of_isBorder (ht c hc)

/-- A name is read in the place of an alias as it is elsewhere. -/
theorem readName_alias (n : ListName) (ht : Border t) :
    Sql.readName opensAlias (n.text ++ t) = some (n.text, t) := by
  rw [← n.readName ht]
  cases n with
  | bare c cs opens plain free => simp [text, ident, Ident.text, Sql.readName, opensAlias, opens]
  | quoted mark name isMark ne_nil free =>
    have hopen : opensName mark = false := opensName_of_isNameQuote isMark
    have halias : opensAlias mark = false := by
      simp only [isNameQuote, Bool.or_eq_true, beq_iff_eq] at isMark
      rcases isMark with rfl | rfl <;> decide
    simp [text, ident, Ident.text, Sql.readName, hopen, halias]

theorem unquote (n : ListName) : unquote n.text = n.name := by
  cases n with
  | bare c cs opens plain free => exact unquote_plain (forall_isPlain opens plain)
  | quoted mark name isMark ne_nil free =>
    exact unquote_quoted isMark ne_nil fun d hd => by simpa using List.all_eq_true.1 free d hd

/-- In front of a name no modifier is seen, unless the name itself is a bare ONLY. -/
theorem skipModifiers (n : ListName) (ht : Border t) (honly : spells "ONLY" n.text = false) :
    skipModifiers (n.text ++ t) = n.text ++ t := by
  cases n with
  | bare c cs opens plain free =>
    have hplain := forall_isPlain opens plain
    have hlateral : spells "LATERAL" (c :: cs) = false := by
      rw [spells_eq_sameLetters (by decide) hplain]
      exact isOneOf_eq_false.1 free "LATERAL" (by decide)
    exact skipModifiers_plain hplain ht honly hlateral
  | quoted mark name isMark ne_nil free =>
    have hborder : Border (mark :: (name ++ [mark]) ++ t) :=
      border_cons.2 (isBorder_of_isNameQuote isMark)
    exact skipModifiers_plain (w := []) (by simp) hborder rfl rfl

end ListName

/-- A table with its schema, and its alias behind an AS. -/
structure ListItem where
  schema : Option ListName
  table : ListName
  calledAs : Option ListName

/-- An alias as it is written behind a table. -/
def asText : Option ListName → List Char
  | none => []
  | some a => " AS ".toList ++ a.text

/-- An alias, unless its name is a reserved word. -/
def keptAlias : Option ListName → Option ListName
  | none => none
  | some a => if isReserved a.name then none else some a

/-- What is left of an alias that is not read. -/
def leftAlias : Option ListName → List Char
  | none => []
  | some a => if isReserved a.name then asText (some a) else []

namespace ListItem

/-- The table's name behind its schema. -/
def path (i : ListItem) : List Char :=
  match i.schema with
  | some s => s.text ++ '.' :: i.table.text
  | none => i.table.text

def text (i : ListItem) : List Char := i.path ++ asText i.calledAs

/-- The table that an item stands for: with the schema written or the one the engine assumes, under
the alias written or its own name, all of them without quotes. -/
def ref (d : Dialect) (i : ListItem) : TableRef :=
  { schema := (i.schema.map fun s => .ofList s.name).or d.defaultSchema
    table := .ofList i.table.name
    calledAs := .ofList (i.calledAs.getD i.table).name }

/-- The name that an item opens with. -/
def front (i : ListItem) : ListName := i.schema.getD i.table

/-- An item is read unless it opens with a bare ONLY, which passes for a modifier, or its table has no
schema and a reserved word for its name. -/
def isRead (i : ListItem) : Bool :=
  !spells "ONLY" i.front.text && (i.schema.isSome || !isReserved i.table.name)

/-- The table that is read off an item: a reserved word is no alias. -/
def seen (d : Dialect) (i : ListItem) : TableRef := { i with calledAs := keptAlias i.calledAs }.ref d

/-- An item is read as what it stands for if its alias is no reserved word or is the name of the
table anyway. -/
theorem seen_eq_ref_iff (i : ListItem) : i.seen d = i.ref d ↔
    ∀ a ∈ i.calledAs, isReserved a.name = true → a.name = i.table.name := by
  obtain ⟨schema, table, calledAs⟩ := i
  cases calledAs with
  | none => simp [seen, ref, keptAlias]
  | some a =>
    cases h : isReserved a.name with
    | false => simp [seen, ref, keptAlias, h]
    | true =>
      simp only [seen, ref, keptAlias, h, if_true, Option.getD_none, Option.getD_some,
        TableRef.mk.injEq, true_and, String.ofList_inj, Option.mem_def, Option.some.injEq,
        forall_eq', forall_const]
      exact eq_comm

end ListItem

/-! ### One item -/

section Reading

variable {a : Option ListName}

theorem border_asText (ht : ItemEnd t) : Border (asText a ++ t) := by
  cases a with
  | none => exact ht.border
  | some a => exact border_cons.2 (by decide)

theorem afterDot_asText (ht : ItemEnd t) : afterDot (asText a ++ t) = none := by
  cases a with
  | none => exact ht.afterDot
  | some a => rfl

theorem skipArguments_asText (ht : ItemEnd t) : skipArguments (asText a ++ t) = asText a ++ t := by
  cases a with
  | none => exact ht.skipArguments
  | some a => rfl

theorem readAlias_asText (n : ListName) (ht : ItemEnd t) :
    readAlias (asText (some n) ++ t) = if isReserved n.name then none else some (n.name, t) := by
  have hafter : afterAs ('A' :: 'S' :: ' ' :: (n.text ++ t)) = some (trimStart (n.text ++ t)) := rfl
  have htrim : trimStart (asText (some n) ++ t) = 'A' :: 'S' :: ' ' :: (n.text ++ t) := rfl
  rw [readAlias, htrim, readAliasName, hafter, n.trimStart, Option.bind_some,
    n.readName_alias ht.border]
  simp only [n.unquote]
  split
  · rfl
  · cases ht <;> rfl

theorem aliased_asText (schema : Option String) (n : ListName) (ht : ItemEnd t) :
    aliased schema n.name (asText a ++ t) =
      ({ schema, table := .ofList n.name, calledAs := .ofList ((keptAlias a).getD n).name },
        leftAlias a ++ t) := by
  cases a with
  | none =>
    rw [aliased, asText, List.nil_append, ht.readAlias]
    rfl
  | some a =>
    rw [aliased, readAlias_asText a ht]
    cases h : isReserved a.name <;> simp [keptAlias, leftAlias, asText, h]

theorem ListItem.readTable (i : ListItem) (ht : ItemEnd t) :
    readTable d (i.path ++ (asText i.calledAs ++ t)) =
      if i.schema.isSome || !isReserved i.table.name then
        some (i.seen d, leftAlias i.calledAs ++ t) else none := by
  obtain ⟨schema, table, calledAs⟩ := i
  have htable : readName opensName (table.text ++ (asText calledAs ++ t)) =
      some (table.text, asText calledAs ++ t) := table.readName (border_asText ht)
  cases schema with
  | none =>
    rw [path, Sql.readTable, htable]
    simp only [afterDot_asText ht, Option.bind_none, table.unquote, skipArguments_asText ht,
      aliased_asText _ _ ht, Option.isSome_none, Bool.false_or]
    cases isReserved table.name <;> rfl
  | some schema =>
    have hschema : readName opensName (schema.text ++ '.' :: (table.text ++ (asText calledAs ++ t))) =
        some (schema.text, '.' :: (table.text ++ (asText calledAs ++ t))) :=
      schema.readName (border_cons.2 (by decide))
    have hafter : afterDot ('.' :: (table.text ++ (asText calledAs ++ t))) =
        some (trimStart (table.text ++ (asText calledAs ++ t))) := rfl
    rw [path, List.append_assoc, List.cons_append, Sql.readTable, hschema]
    simp only [hafter, table.trimStart, Option.bind_some, htable, table.unquote, schema.unquote,
      skipArguments_asText ht, aliased_asText _ _ ht, Option.isSome_some, Bool.true_or, if_true]
    rfl

theorem readItem_of_readName (ht : Border t) (hparen : t.head? ≠ some '(')
    (hname : readName opensName t = none) : readItem d t = none := by
  have hskip : skipModifiers t = t := skipModifiers_plain (w := []) (by simp) ht rfl rfl
  rw [readItem, hskip]
  split
  · exact absurd rfl hparen
  · rw [readTable, hname]
    rfl

/-- No item opens with a comma or a dot. -/
theorem readItem_of_mark {c : Char} (hc : c = ',' ∨ c = '.') :
    readItem d (trimStart (c :: t)) = none := by
  have hblank : isBlank c = false := by rcases hc with rfl | rfl <;> decide
  rw [trimStart_cons hblank]
  refine readItem_of_readName (border_cons.2 ?_) ?_ ?_
  · rcases hc with rfl | rfl <;> decide
  · rcases hc with rfl | rfl <;> simp
  · rcases hc with rfl | rfl <;> rfl

/-- The word AS is no table. -/
theorem readItem_asText (n : ListName) : readItem d (trimStart (asText (some n) ++ t)) = none := by
  have hplain : ∀ c ∈ ['A', 'S'], isPlain c = true := List.all_eq_true.1 (by decide)
  have hborder : Border (' ' :: (n.text ++ t)) := border_cons.2 (by decide)
  have htrim : trimStart (asText (some n) ++ t) = ['A', 'S'] ++ ' ' :: (n.text ++ t) := rfl
  have hskip : skipModifiers (['A', 'S'] ++ ' ' :: (n.text ++ t)) =
      ['A', 'S'] ++ ' ' :: (n.text ++ t) := skipModifiers_plain hplain hborder rfl rfl
  have hname : readName opensName (['A', 'S'] ++ ' ' :: (n.text ++ t)) =
      some (['A', 'S'], ' ' :: (n.text ++ t)) :=
    readName_plain (by decide) (List.forall_mem_cons.1 hplain).2 hborder
  obtain ⟨c, cs, h, hc, hdot, -⟩ := n.exists_cons
  have hnext : Text.trimStart (' ' :: (n.text ++ t)) = c :: (cs ++ t) := by
    rw [trimStart_blank, n.trimStart, h, List.cons_append]
  have hafter : afterDot (' ' :: (n.text ++ t)) = none := afterDot_eq_none hnext hdot
  have hreserved : isReserved (unquote ['A', 'S']) = true := by decide
  have htable : readTable d (['A', 'S'] ++ ' ' :: (n.text ++ t)) = none := by
    rw [readTable, hname]
    simp only [hafter, Option.bind_none, hreserved, if_true]
  rw [htrim, readItem, hskip]
  exact congrArg (Option.map _) htable

theorem itemEnd_of_comma (ht : ∀ c ∈ t.head?, c = ',') : ItemEnd t := by
  cases t with
  | nil => exact .nil
  | cons c t =>
    obtain rfl := ht c rfl
    exact .comma

/-- No item begins behind a bare ONLY where the name of a table ends. -/
theorem readItem_behind_only (ht : ∀ c ∈ t.head?, c = ',') :
    readItem d (trimStart (asText a ++ t)) = none := by
  cases a with
  | some a => exact readItem_asText a
  | none =>
    cases t with
    | nil => exact readItem_of_readName border_nil (by decide) rfl
    | cons c t => exact readItem_of_mark (.inl (ht c rfl))

/-- What follows the name that an item opens with. -/
theorem ListItem.exists_front (i : ListItem) (ht : ∀ c ∈ t.head?, c = ',') : ∃ u,
    i.text ++ t = i.front.text ++ u ∧ Border u ∧ readItem d (trimStart u) = none := by
  obtain ⟨schema, table, calledAs⟩ := i
  cases schema with
  | none =>
    exact ⟨asText calledAs ++ t, List.append_assoc .., border_asText (itemEnd_of_comma ht),
      readItem_behind_only ht⟩
  | some schema =>
    refine ⟨'.' :: (table.text ++ (asText calledAs ++ t)), ?_, border_cons.2 (by decide),
      readItem_of_mark (.inr rfl)⟩
    simp [text, path, front]

/-- A bare ONLY passes for a modifier of what follows it. -/
theorem ListName.readItem_only (n : ListName) (honly : spells "ONLY" n.text = true) (hu : Border u) :
    readItem d (n.text ++ u) = readItem d (Text.trimStart u) := by
  have hplain : ∀ c ∈ n.text, isPlain c = true := by
    cases n with
    | bare c cs opens plain free => exact forall_isPlain opens plain
    | quoted mark name isMark ne_nil free =>
      have hhead : keyLetter mark = 'O' := by
        rw [spells, beq_iff_eq] at honly
        exact (List.cons.inj honly).1
      simp only [isNameQuote, Bool.or_eq_true, beq_iff_eq] at isMark
      rcases isMark with rfl | rfl <;> exact absurd hhead (by decide)
  have htake : (n.text ++ u).takeWhile isWordChar = n.text :=
    takeWhile_plain (fun _ => isWordChar_of_isPlain) (fun _ => isWordChar_of_isBorder) hplain hu
  have hdrop : (n.text ++ u).dropWhile isWordChar = u :=
    dropWhile_plain (fun _ => isWordChar_of_isPlain) (fun _ => isWordChar_of_isBorder) hplain hu
  have hafter : afterModifier (n.text ++ u) = some (Text.trimStart u) := by
    simp [afterModifier, htake, hdrop, honly]
  unfold readItem
  rw [skipModifiers_of_some hafter]

theorem ListItem.readItem (i : ListItem) (ht : ∀ c ∈ t.head?, c = ',') :
    readItem d (i.text ++ t) =
      if i.isRead then some (some (i.seen d), leftAlias i.calledAs ++ t) else none := by
  obtain ⟨u, htext, hborder, hnone⟩ := i.exists_front (d := d) ht
  have hread := i.readTable (d := d) (itemEnd_of_comma ht)
  cases honly : spells "ONLY" i.front.text with
  | true =>
    rw [htext, i.front.readItem_only honly hborder, hnone, isRead, honly]
    rfl
  | false =>
    have hskip : skipModifiers (i.text ++ t) = i.text ++ t := by
      rw [htext, i.front.skipModifiers hborder honly]
    obtain ⟨c, cs, hc, -, -, hparen⟩ := i.front.exists_cons
    rw [Sql.readItem, hskip]
    split
    · rename_i heq
      rw [htext, hc, List.cons_append] at heq
      exact absurd (List.cons.inj heq).1 hparen
    · rw [text, List.append_assoc, hread, isRead, honly, Bool.not_false, Bool.true_and]
      split <;> rfl

end Reading

/-! ### The list -/

/-- Items with commas between them. -/
def listText : List ListItem → List Char
  | [] => []
  | [i] => i.text
  | i :: is => i.text ++ (", ".toList ++ listText is)

theorem nextFrom_quoted {depth : Nat} {word : List Char} (h : m ∉ s) :
    nextFrom depth (some m) word (s ++ m :: t) = nextFrom depth none word t := by
  induction s with
  | nil => simp [nextFrom, nextQuote]
  | cons c s ih =>
    obtain ⟨hc, hs⟩ : m ≠ c ∧ m ∉ s := by simpa using h
    simp only [List.cons_append, nextFrom, Option.isSome_some, if_true, nextQuote_inside (Ne.symm hc)]
    exact ih hs

/-- The walk to the next comma goes over an alias that is not read. -/
theorem nextItem_leftAlias (a : Option ListName) : nextItem (leftAlias a ++ t) = nextItem t := by
  match a with
  | none => rfl
  | some (.bare c cs opens plain free) =>
    have hfree : isReserved (ListName.bare c cs opens plain free).name = false := free
    rw [leftAlias, hfree]
    rfl
  | some (.quoted mark name isMark ne_nil free) =>
    rw [leftAlias]
    split
    · have hmem : mark ∉ name := fun hmem => by
        have hmark := List.all_eq_true.1 free mark hmem
        simp [isMark] at hmark
      have hlead : nextItem (" AS ".toList ++ (mark :: (name ++ mark :: t))) =
          nextItem (mark :: (name ++ mark :: t)) :=
        Flat.passed (by decide) (by decide) _ (border_cons.2 (isBorder_of_isNameQuote isMark))
      have hopen : nextItem (mark :: (name ++ mark :: t)) =
          nextFrom 0 (some mark) [] (name ++ mark :: t) := by
        simp only [isNameQuote, Bool.or_eq_true, beq_iff_eq] at isMark
        rcases isMark with rfl | rfl <;> rfl
      have htext : asText (some (.quoted mark name isMark ne_nil free)) ++ t =
          " AS ".toList ++ (mark :: (name ++ mark :: t)) := by
        simp [asText, ListName.text, ListName.ident, Ident.text]
      rw [htext, hlead, hopen, nextFrom_quoted hmem]
      rfl
    · rfl

theorem ListItem.trimStart (i : ListItem) : trimStart (i.text ++ t) = i.text ++ t := by
  obtain ⟨u, htext, -, -⟩ := i.exists_front (d := .postgres) (t := []) (by simp)
  rw [List.append_nil] at htext
  rw [htext, List.append_assoc, i.front.trimStart]

theorem trimStart_listText (is : List ListItem) : trimStart (listText is) = listText is := by
  fun_cases listText is with
  | case1 => rfl
  | case2 i => simpa using i.trimStart (t := [])
  | case3 i is => exact i.trimStart

/-- A list is read item by item, up to the first that is not read. -/
theorem readItems_listText (is : List ListItem) :
    readItems d true (listText is) = (is.takeWhile (·.isRead)).map (·.seen d) := by
  fun_induction listText is with
  | case1 => exact readItems_of_none (readItem_of_readName border_nil (by decide) rfl)
  | case2 i =>
    have hread := i.readItem (d := d) (t := []) (by simp)
    rw [List.append_nil] at hread
    cases h : i.isRead with
    | false =>
      rw [h] at hread
      simpa [h] using readItems_of_none hread
    | true =>
      rw [h] at hread
      have hnext : nextItem (leftAlias i.calledAs ++ []) = none := nextItem_leftAlias _
      rw [readItems_of_readItem hread, hnext]
      simp [h]
  | case3 i is hne ih =>
    have hread := i.readItem (d := d) (t := ", ".toList ++ listText is) (by simp)
    cases h : i.isRead with
    | false =>
      rw [h] at hread
      simpa [h] using readItems_of_none hread
    | true =>
      rw [h] at hread
      have hcomma : nextItem (", ".toList ++ listText is) = some (trimStart (listText is)) := rfl
      have hnext : nextItem (leftAlias i.calledAs ++ (", ".toList ++ listText is)) =
          some (listText is) := by rw [nextItem_leftAlias, hcomma, trimStart_listText]
      rw [readItems_of_readItem hread, hnext]
      simp [h, ih]

/-! ### Words FROM and JOIN inside the names -/

/-- No FROM and no JOIN of a text stands before white space. -/
def Quiet (s : List Char) : Prop :=
  ∀ b w a, s = b ++ (w ++ a) → WholeWord b w a → namesTables w = true → ∀ c ∈ a.head?, isBlank c = false

theorem Quiet.of_words (h : ∀ w ∈ words s, namesTables w = false) : Quiet s := by
  rintro b w a rfl hword hnames
  have hmem : w ∈ words (b ++ (w ++ a)) := mem_words_iff.2 ⟨b, a, rfl, hword⟩
  rw [h w hmem] at hnames
  contradiction

/-- What stands behind a word of such a text is such a text. -/
theorem Quiet.behind {b w a : List Char} (h : Quiet (b ++ (w ++ a))) (hword : WholeWord b w a) :
    Quiet a := by
  rintro b' w' a' rfl hword' hnames
  exact h (b ++ (w ++ b')) w' a' (by simp) (hword'.behind_word hword) hnames

/-- Nothing is found in such a text before a mark. -/
theorem Quiet.finds (h : Quiet s) (hm : isWordChar m = false) (hblank : isBlank m = false) :
    Finds d before s (m :: t) [] := by
  induction s using word_induction namesTables generalizing before with
  | free s hnone =>
    refine .of_eq (tablesFrom_congr ?_)
    simpa using findFrom_append hnone (t := m :: t) (by simpa using hm)
  | found b w a hword hnames hfirst ih =>
    have hwhole : WholeWord b w (a ++ m :: t) := hword.congr_right fun c hc => by
      cases a with
      | nil => simpa [← Option.some.inj hc] using hm
      | cons e a => exact hword.right c hc
    have hquiet : ((a ++ m :: t).head?.map isBlank).getD false = false := by
      cases a with
      | nil => exact hblank
      | cons e a => exact h b w (e :: a) rfl hword hnames e rfl
    have hrest : Finds d (w.reverse ++ (b.reverse ++ before)) a (m :: t) [] := ih (h.behind hword)
    rw [Finds, List.append_assoc, List.append_assoc, tablesFrom_wholeWord hwhole hnames hfirst]
    simp only [hquiet, Bool.false_and, Bool.false_eq_true, if_false, List.nil_append]
    simpa [Finds] using hrest

/-- The names that an item is made of. -/
def ListItem.names (i : ListItem) : List ListName :=
  i.schema.toList ++ i.table :: i.calledAs.toList

theorem ListName.finds (n : ListName) (h : Quiet n.name) (ht : Border t) :
    Finds d before n.text t [] := by
  cases n with
  | bare c cs opens plain free =>
    have hplain := forall_isPlain opens plain
    have hwords : words (c :: cs) = [c :: cs] :=
      words_word (by simp) fun c hc => isWordChar_of_isPlain (hplain c hc)
    have hfree : Free ["FROM", "JOIN"] (c :: cs) := by
      rw [Free, hwords, List.forall_mem_singleton]
      exact isOneOf_of_subset (by decide) free
    exact .flat (.ofPlain hplain) hfree ht
  | quoted mark name isMark ne_nil free =>
    have hmark : isWordChar mark = false := isWordChar_of_isBorder (isBorder_of_isNameQuote isMark)
    have hname : Finds d (mark :: before) name ([mark] ++ t) [] :=
      h.finds hmark (isBlank_of_isNameQuote isMark)
    exact Finds.append (s := [mark]) (.char hmark) (hname.append (.char hmark))

theorem finds_asText (a : Option ListName) (h : ∀ n ∈ a, Quiet n.name) (ht : Border t) :
    Finds d before (asText a) t [] := by
  cases a with
  | none => exact .nil
  | some n =>
    have hlead : Finds d before " AS ".toList (n.text ++ t) [] :=
      Finds.lead (s := " AS".toList) (by decide) (by decide)
    exact hlead.append (n.finds (h n rfl) ht)

theorem ListItem.finds (i : ListItem) (h : ∀ n ∈ i.names, Quiet n.name) (ht : ItemEnd t) :
    Finds d before i.text t [] := by
  obtain ⟨schema, table, calledAs⟩ := i
  have hborder : Border (asText calledAs ++ t) := border_asText ht
  have halias (before : List Char) : Finds d before (asText calledAs) t [] :=
    finds_asText calledAs (fun n hn => h n (by simp [names, Option.mem_def.1 hn])) ht.border
  have htable (before : List Char) : Finds d before table.text (asText calledAs ++ t) [] :=
    table.finds (h table (by simp [names])) hborder
  refine Finds.skip ?_ (halias _)
  cases schema with
  | none => exact htable before
  | some schema =>
    have hschema : Finds d before schema.text (('.' :: table.text) ++ (asText calledAs ++ t)) [] :=
      schema.finds (h schema (by simp [names])) (border_cons.2 (by decide))
    exact hschema.append (Finds.append (s := ['.']) (.char (by decide)) (htable _))

theorem finds_listText {is : List ListItem} (h : ∀ i ∈ is, ∀ n ∈ i.names, Quiet n.name) :
    Finds d before (listText is) [] [] := by
  fun_induction listText is generalizing before with
  | case1 => exact .nil
  | case2 i => exact i.finds (h i (by simp)) .nil
  | case3 i is hne ih =>
    obtain ⟨hi, his⟩ := List.forall_mem_cons.1 h
    have hitem : Finds d before i.text ((", ".toList ++ listText is) ++ []) [] := i.finds hi .comma
    have hcomma : Finds d (i.text.reverse ++ before) ", ".toList (listText is ++ []) [] :=
      Finds.append (s := [',']) (.char (by decide)) (.char (by decide))
    exact hitem.append (hcomma.append (ih his))

/-- A statement that takes all columns of a list. -/
def selectAll (is : List ListItem) : List Char := "SELECT *".toList ++ (" FROM ".toList ++ listText is)

/-- The tables of such a statement are those of the items up to the first that is not read, and what
words inside the quoted names bring in. -/
theorem tables_selectAll (d : Dialect) (is : List ListItem) : ∃ inner,
    tables d (selectAll is) = (is.takeWhile (·.isRead)).map (·.seen d) ++ inner ∧
      ((∀ i ∈ is, ∀ n ∈ i.names, Quiet n.name) → inner = []) := by
  have hlead : tables d (selectAll is) =
      tablesFrom d "SELECT *".toList.reverse (" FROM ".toList ++ listText is) :=
    tablesFrom_append (by decide) (by decide) (border_cons.2 (by decide))
  have hopens : opensClause (' ' :: "SELECT *".toList.reverse) = true := by decide +kernel
  refine ⟨tablesFrom d (" FROM ".toList.reverse ++ "SELECT *".toList.reverse) (listText is), ?_, ?_⟩
  · rw [hlead, tablesFrom_from, if_pos hopens, trimStart_listText, readItems_listText]
  · intro h
    have hnone : Finds d (" FROM ".toList.reverse ++ "SELECT *".toList.reverse) (listText is) [] [] :=
      finds_listText h
    rw [Finds, List.append_nil, tablesFrom_nil, List.append_nil] at hnone
    exact List.perm_nil.1 hnone

end Querent.Sql
