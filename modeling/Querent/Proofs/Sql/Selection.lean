import Querent.Proofs.Sql.Gap
import Querent.Proofs.Sql.Leads
import Querent.Proofs.Sql.Normalized
import Querent.Proofs.Sql.Phase
import Querent.Proofs.Sql.Qualified
import Querent.Proofs.Sql.Tidy

/-! A selection of columns from one table, under any names: as a text, with what the readers of a
statement find in it. Names may be spelled like words of the language. -/
namespace Querent.Sql

open Text

variable {d : Dialect} {s t u v a e : List Char} {es : List (List Char)} {c : Char} {more : Bool}
  {r : TableRef} {k : String}

/-! ### Texts cut at a blank -/

/-- Two texts with a blank in them are cut at the same one, or the first at a later one. -/
theorem blank_cases (hs : ' ' ∉ s) (h : u ++ ' ' :: a = s ++ ' ' :: t) :
    (u = s ∧ a = t) ∨ ∃ v, u = s ++ ' ' :: v ∧ v ++ ' ' :: a = t := by
  rcases List.append_eq_append_iff.1 h with ⟨x, rfl, hx⟩ | ⟨x, rfl, hx⟩
  · cases x with
    | nil => exact .inl ⟨by simp, by simpa using hx⟩
    | cons c x =>
      obtain rfl : ' ' = c := (List.cons.inj hx).1
      exact absurd (by simp) hs
  · cases x with
    | nil => exact .inl ⟨by simp, by simpa using hx.symm⟩
    | cons c x =>
      obtain ⟨rfl, htail⟩ := List.cons.inj hx
      exact .inr ⟨x, rfl, htail.symm⟩

/-- Entries with a comma and a blank between two. -/
def listed (e : List Char) : List (List Char) → List Char
  | [] => e
  | e' :: es => e ++ ',' :: ' ' :: listed e' es

theorem intercalate_eq_listed : ", ".toList.intercalate (e :: es) = listed e es := by
  induction es generalizing e with
  | nil => simp [listed]
  | cons e' es ih => simp [listed, ← ih, List.intercalate]

/-- The characters of qualified names and of the star. -/
def inEntry (c : Char) : Bool := isPlain c || c == '.' || c == '*'

/-- What stands between two commas of a selection. -/
structure Entry (s : List Char) : Prop where
  ne_nil : s ≠ []
  chars : ∀ c ∈ s, inEntry c = true

theorem forall_inEntry {P : Char → Prop} (h : ∀ n < 128, inEntry (Char.ofNat n) = true →
    P (Char.ofNat n)) (hc : inEntry c = true) : P c := by
  have hascii : c.toNat < 128 := by
    simp only [inEntry, Bool.or_eq_true, beq_iff_eq] at hc
    rcases hc with (hc | rfl) | rfl
    · exact toNat_lt_of_isPlain hc
    · decide
    · decide
  exact forall_ascii (P := fun c => inEntry c = true → P c) h hascii hc

theorem isBlank_of_inEntry (h : inEntry c = true) : isBlank c = false :=
  forall_inEntry (P := fun c => isBlank c = false) (by decide) h

theorem Entry.full (h : Entry s) : ∀ c ∈ s, isBlank c = false :=
  fun c hc => isBlank_of_inEntry (h.chars c hc)

theorem Entry.not_mem_blank (h : Entry s) : ' ' ∉ s :=
  fun hmem => absurd (h.full _ hmem) (by decide)

theorem mem_listed (h : c ∈ listed e es) : c = ',' ∨ c = ' ' ∨ ∃ x ∈ e :: es, c ∈ x := by
  induction es generalizing e with
  | nil => exact .inr (.inr ⟨e, by simp, h⟩)
  | cons e' es ih =>
    simp only [listed, List.mem_append, List.mem_cons] at h
    rcases h with h | rfl | rfl | h
    · exact .inr (.inr ⟨e, by simp, h⟩)
    · exact .inl rfl
    · exact .inr (.inl rfl)
    · rcases ih h with h | h | ⟨x, hx, hc⟩
      · exact .inl h
      · exact .inr (.inl h)
      · exact .inr (.inr ⟨x, List.mem_cons_of_mem _ hx, hc⟩)

theorem spaced_listed (h : ∀ x ∈ e :: es, Entry x) : Spaced (listed e es) := by
  induction es generalizing e with
  | nil =>
    have he : Entry e := h e (by simp)
    exact .run he.ne_nil he.full
  | cons e' es ih =>
    obtain ⟨he, hes⟩ := List.forall_mem_cons.1 h
    have hrun : Spaced (e ++ [',']) := by
      refine .run (by simp) fun c hc => ?_
      rcases List.mem_append.1 hc with hc | hc
      · exact he.full c hc
      · obtain rfl := List.mem_singleton.1 hc
        decide
    have htext : listed e (e' :: es) = e ++ [','] ++ ' ' :: listed e' es := by simp [listed]
    rw [htext]
    exact hrun.append (ih hes)

theorem mem_words_listed {w : List Char} :
    w ∈ words (listed e es) ↔ ∃ x ∈ e :: es, w ∈ words x := by
  induction es generalizing e with
  | nil => simp [listed]
  | cons e' es ih =>
    have hcomma : isWordChar ',' = false := by decide
    have hblank : isWordChar ' ' = false := by decide
    rw [listed, words_append_cons hcomma, words_cons hblank, List.mem_append, ih]
    simp

/-- Behind entries a text that does not end in a comma is cut at the blank after them, or later. -/
theorem behind_listed (he : ∀ x ∈ e :: es, Entry x) (hu : ∀ c ∈ u.getLast?, c ≠ ',')
    (h : u ++ ' ' :: a = listed e es ++ ' ' :: t) : a = t ∨ ∃ v, v ++ ' ' :: a = t := by
  induction es generalizing e u with
  | nil =>
    rcases blank_cases (he e (by simp)).not_mem_blank h with ⟨-, ha⟩ | ⟨v, -, hv⟩
    · exact .inl ha
    · exact .inr ⟨v, hv⟩
  | cons e' es ih =>
    obtain ⟨hfirst, hrest⟩ := List.forall_mem_cons.1 he
    have hfree : ' ' ∉ e ++ [','] := by simpa using hfirst.not_mem_blank
    have htext : listed e (e' :: es) ++ ' ' :: t =
        (e ++ [',']) ++ ' ' :: (listed e' es ++ ' ' :: t) := by simp [listed]
    rw [htext] at h
    rcases blank_cases hfree h with ⟨rfl, -⟩ | ⟨v, rfl, hv⟩
    · exact absurd rfl (hu ',' (by simp))
    · refine ih hrest (fun c hc => hu c ?_) hv
      rw [List.getLast?_append, List.getLast?_cons, Option.mem_def.1 hc]
      rfl

/-! ### Selections -/

/-- A bare name of ASCII, which may be spelled like any word. -/
structure PlainName where
  text : List Char
  opens : text.head?.any opensName = true
  plain : text.all isPlain = true

namespace PlainName

theorem forall_isPlain (n : PlainName) : ∀ c ∈ n.text, isPlain c = true :=
  List.all_eq_true.1 n.plain

theorem ne_nil (n : PlainName) : n.text ≠ [] := by
  intro hnil
  simpa [hnil] using n.opens

theorem words_text (n : PlainName) : words n.text = [n.text] :=
  words_word n.ne_nil fun c hc => isWordChar_of_isPlain (n.forall_isPlain c hc)

theorem readName (n : PlainName) (ht : Border t) :
    readName opensName (n.text ++ t) = some (n.text, t) := by
  have hopens := n.opens
  have hplain := n.forall_isPlain
  obtain ⟨c, cs, htext⟩ := List.exists_cons_of_ne_nil n.ne_nil
  rw [htext] at hopens hplain ⊢
  exact readName_plain (by simpa using hopens) (fun e he => hplain e (by simp [he])) ht

theorem trimStart (n : PlainName) : trimStart (n.text ++ t) = n.text ++ t := by
  obtain ⟨c, cs, htext⟩ := List.exists_cons_of_ne_nil n.ne_nil
  have hc : isPlain c = true := n.forall_isPlain c (by simp [htext])
  rw [htext, List.cons_append, trimStart_cons (isBlank_of_isPlain hc)]

theorem unquote (n : PlainName) : unquote n.text = n.text := unquote_plain n.forall_isPlain

end PlainName

/-- A selection of some columns of one table, or of all. -/
structure Selection where
  schema : PlainName
  table : PlainName
  columns : List PlainName

namespace Selection

variable (q : Selection)

/-- The schema and the table. -/
def path : List Char := q.schema.text ++ '.' :: q.table.text

def entry (n : PlainName) : List Char := q.path ++ '.' :: n.text

/-- The columns, and a star where there are none. -/
def selected : List Char :=
  match q.columns with
  | [] => ['*']
  | n :: ns => listed (q.entry n) (ns.map q.entry)

def text : List Char :=
  "SELECT".toList ++ ' ' :: (q.selected ++ ' ' :: ("FROM".toList ++ ' ' :: q.path))

theorem text_eq : q.text =
    "SELECT".toList ++ ' ' :: (q.selected ++ ' ' :: ("FROM".toList ++ ' ' :: q.path)) := rfl

/-- Every name in the text. -/
def names : List PlainName := q.schema :: q.table :: q.columns

theorem selected_eq : q.selected =
    if q.columns.isEmpty then ['*'] else ", ".toList.intercalate (q.columns.map q.entry) := by
  unfold selected
  cases q.columns with
  | nil => rfl
  | cons n ns => exact intercalate_eq_listed.symm

theorem entry_path : Entry q.path := by
  refine ⟨by simp [path], fun c hc => ?_⟩
  rcases List.mem_append.1 hc with hc | hc
  · simp [inEntry, q.schema.forall_isPlain c hc]
  · rcases List.mem_cons.1 hc with rfl | hc
    · decide
    · simp [inEntry, q.table.forall_isPlain c hc]

theorem entry_entry (n : PlainName) : Entry (q.entry n) := by
  refine ⟨by simp [entry], fun c hc => ?_⟩
  rcases List.mem_append.1 hc with hc | hc
  · exact q.entry_path.chars c hc
  · rcases List.mem_cons.1 hc with rfl | hc
    · decide
    · simp [inEntry, n.forall_isPlain c hc]

/-- What is selected are entries. -/
theorem exists_listed : ∃ e es, q.selected = listed e es ∧ (∀ x ∈ e :: es, Entry x) ∧
    (e :: es = [['*']] ∧ q.columns = [] ∨ e :: es = q.columns.map q.entry) := by
  unfold selected
  cases q.columns with
  | nil =>
    have hstar : Entry ['*'] := ⟨by simp, List.all_eq_true.1 (by decide)⟩
    exact ⟨['*'], [], rfl, by simpa using hstar, .inl ⟨rfl, rfl⟩⟩
  | cons n ns =>
    refine ⟨q.entry n, ns.map q.entry, rfl, ?_, .inr rfl⟩
    simpa using ⟨q.entry_entry n, fun m _ => q.entry_entry m⟩

theorem spaced_text : Spaced q.text := by
  obtain ⟨e, es, hselected, hentries, -⟩ := q.exists_listed
  have hfrom : Spaced ("FROM".toList ++ ' ' :: q.path) :=
    (Spaced.ofPlain (by decide)).append (.run q.entry_path.ne_nil q.entry_path.full)
  rw [text_eq, hselected]
  exact (Spaced.ofPlain (by decide)).append ((spaced_listed hentries).append hfrom)

/-- The characters of a selection. -/
theorem chars_text : ∀ c ∈ q.text, inEntry c = true ∨ c = ',' ∨ c = ' ' := by
  obtain ⟨e, es, hselected, hentries, -⟩ := q.exists_listed
  intro c hc
  have hkeyword (ks : List Char) (hks : ks.all inEntry = true) (hmem : c ∈ ks) :
      inEntry c = true := List.all_eq_true.1 hks c hmem
  simp only [text_eq, List.mem_append, List.mem_cons] at hc
  rcases hc with hc | rfl | hc | rfl | hc | rfl | hc
  · exact .inl (hkeyword _ (by decide) hc)
  · exact .inr (.inr rfl)
  · rw [hselected] at hc
    rcases mem_listed hc with rfl | rfl | ⟨x, hx, hmem⟩
    · exact .inr (.inl rfl)
    · exact .inr (.inr rfl)
    · exact .inl ((hentries x hx).chars c hmem)
  · exact .inr (.inr rfl)
  · exact .inl (hkeyword _ (by decide) hc)
  · exact .inr (.inr rfl)
  · exact .inl (q.entry_path.chars c hc)

/-- Characters of other kinds are not in a selection. -/
theorem not_mem_text (h : inEntry c = false) (hcomma : c ≠ ',') (hblank : c ≠ ' ') :
    c ∉ q.text := by
  intro hmem
  rcases q.chars_text c hmem with hc | hc | hc
  · rw [h] at hc
    cases hc
  · exact hcomma hc
  · exact hblank hc

/-- It opens no comment and does not end before its end. -/
theorem no_marks : '-' ∉ q.text ∧ '/' ∉ q.text ∧ ';' ∉ q.text :=
  ⟨q.not_mem_text (by decide) (by decide) (by decide),
    q.not_mem_text (by decide) (by decide) (by decide),
    q.not_mem_text (by decide) (by decide) (by decide)⟩

theorem words_path : words q.path = [q.schema.text, q.table.text] := by
  rw [path, words_append_cons (by decide), q.schema.words_text, q.table.words_text]
  rfl

theorem mem_words_text {w : List Char} : w ∈ words q.text ↔
    w = "SELECT".toList ∨ w = "FROM".toList ∨ ∃ n ∈ q.names, w = n.text := by
  have hblank : isWordChar ' ' = false := by decide
  have hselect : words "SELECT".toList = ["SELECT".toList] :=
    words_word (by simp) (List.all_eq_true.1 (by decide))
  have hfrom : words "FROM".toList = ["FROM".toList] :=
    words_word (by simp) (List.all_eq_true.1 (by decide))
  have hselected : w ∈ words q.selected → ∃ n ∈ q.names, w = n.text := by
    obtain ⟨e, es, hselected, -, ⟨hstar, -⟩ | hcolumns⟩ := q.exists_listed
    · rw [hselected, mem_words_listed, hstar]
      intro h
      have hnone : words ['*'] = [] := by decide
      simp [hnone] at h
    · rw [hselected, mem_words_listed, hcolumns]
      rintro ⟨x, hx, hw⟩
      obtain ⟨n, hn, rfl⟩ := List.mem_map.1 hx
      rw [entry, words_append_cons (by decide), q.words_path, n.words_text] at hw
      simp only [List.mem_append, List.mem_cons, List.not_mem_nil, or_false] at hw
      rcases hw with (rfl | rfl) | rfl
      · exact ⟨q.schema, by simp [names], rfl⟩
      · exact ⟨q.table, by simp [names], rfl⟩
      · exact ⟨n, by simp [names, hn], rfl⟩
  have hcolumn : ∀ n ∈ q.columns, n.text ∈ words q.selected := by
    obtain ⟨e, es, hselected, -, ⟨-, hnone⟩ | hcolumns⟩ := q.exists_listed
    · simp [hnone]
    · intro n hn
      rw [hselected, mem_words_listed, hcolumns]
      refine ⟨q.entry n, List.mem_map_of_mem hn, ?_⟩
      rw [entry, words_append_cons (by decide), n.words_text]
      simp
  rw [text_eq, words_append_cons hblank, words_append_cons hblank, words_append_cons hblank, hselect,
    hfrom, q.words_path]
  simp only [List.mem_append, List.mem_cons, List.not_mem_nil, or_false, names]
  constructor
  · rintro (h | h | h | h | h)
    · exact .inl h
    · obtain ⟨n, hn, rfl⟩ := hselected h
      exact .inr (.inr ⟨n, by simpa [names] using hn, rfl⟩)
    · exact .inr (.inl h)
    · exact .inr (.inr ⟨_, .inl rfl, h⟩)
    · exact .inr (.inr ⟨_, .inr (.inl rfl), h⟩)
  · rintro (h | h | ⟨n, rfl | rfl | hn, rfl⟩)
    · exact .inl h
    · exact .inr (.inr (.inl h))
    · exact .inr (.inr (.inr (.inl rfl)))
    · exact .inr (.inr (.inr (.inr rfl)))
    · exact .inr (.inl (hcolumn n hn))

/-! ### The table of a selection -/

/-- Behind the word of a selection that a blank follows stands its list, its FROM or its table. -/
theorem behind_word {b w : List Char} (hw : WholeWord b w (' ' :: a))
    (h : q.text = b ++ (w ++ ' ' :: a)) :
    w = "SELECT".toList ∨ a = "FROM".toList ++ ' ' :: q.path ∨ a = q.path := by
  obtain ⟨e, es, hselected, hentries, -⟩ := q.exists_listed
  have hcut : (b ++ w) ++ ' ' :: a =
      "SELECT".toList ++ ' ' :: (listed e es ++ ' ' :: ("FROM".toList ++ ' ' :: q.path)) := by
    rw [List.append_assoc, ← h, text_eq, hselected]
  rcases blank_cases (by decide) hcut with ⟨hfront, -⟩ | ⟨u, hfront, hrest⟩
  · refine .inl ?_
    rcases List.eq_nil_or_concat b with rfl | ⟨b, c, rfl⟩
    · simpa using hfront
    · have hc : isWordChar c = false := hw.left c (by simp)
      have hmem : c ∈ "SELECT".toList := by
        rw [← hfront]
        simp
      have hall : ∀ c ∈ "SELECT".toList, isWordChar c = true := List.all_eq_true.1 (by decide)
      rw [hall c hmem] at hc
      cases hc
  · have hcomma : ∀ c ∈ u.getLast?, c ≠ ',' := by
      rintro c hc rfl
      obtain ⟨w', e', hword⟩ := (List.eq_nil_or_concat w).resolve_left hw.ne_nil
      rw [List.concat_eq_append] at hword
      have hlast : (b ++ w).getLast? = some ',' := by
        rw [hfront, List.getLast?_append, List.getLast?_cons, Option.mem_def.1 hc]
        rfl
      have hend : e' = ',' := by
        rw [hword, ← List.append_assoc, List.getLast?_concat] at hlast
        exact Option.some.inj hlast
      have hchar := hw.chars e' (by simp [hword])
      rw [hend] at hchar
      exact absurd hchar (by decide)
    rcases behind_listed hentries hcomma hrest with rfl | ⟨v, hv⟩
    · exact .inr (.inl rfl)
    · rcases blank_cases (by decide) hv with ⟨-, rfl⟩ | ⟨v', -, hv'⟩
      · exact .inr (.inr rfl)
      · exact absurd (by rw [← hv']; simp) q.entry_path.not_mem_blank

theorem trimStart_path : Text.trimStart q.path = q.path := q.schema.trimStart

theorem head_path : ∃ c cs, q.path = c :: cs ∧ isPlain c = true := by
  obtain ⟨c, cs, hschema⟩ := List.exists_cons_of_ne_nil q.schema.ne_nil
  exact ⟨c, cs ++ '.' :: q.table.text, by rw [path, hschema]; rfl,
    q.schema.forall_isPlain c (by simp [hschema])⟩

/-- A FROM is no item. -/
theorem readItems_from : readItems d more ("FROM".toList ++ ' ' :: q.path) = [] := by
  have hborder : Border (' ' :: q.path) := border_cons.2 (by decide)
  have hplain : ∀ c ∈ "FROM".toList, isPlain c = true := List.all_eq_true.1 (by decide)
  have hskip : skipModifiers ("FROM".toList ++ ' ' :: q.path) = "FROM".toList ++ ' ' :: q.path :=
    skipModifiers_plain hplain hborder (by decide) (by decide)
  have hname : readName opensName ("FROM".toList ++ ' ' :: q.path) =
      some ("FROM".toList, ' ' :: q.path) := readName_plain (by decide) (List.forall_mem_cons.1 hplain).2 hborder
  have hdot : afterDot (' ' :: q.path) = none := by
    obtain ⟨c, cs, hpath, hc⟩ := q.head_path
    have htrim : Text.trimStart (' ' :: q.path) = c :: cs := by
      rw [trimStart_blank, q.trimStart_path, hpath]
    refine afterDot_eq_none htrim ?_
    rintro rfl
    exact absurd hc (by decide)
  have hreserved : isReserved (unquote "FROM".toList) = true := by decide
  have htable : readTable d ("FROM".toList ++ ' ' :: q.path) = none := by
    simp only [readTable, hname, hdot, Option.bind_none, hreserved, if_true]
  refine readItems_of_none ?_
  rw [readItem_eq, hskip, if_neg (by simp), htable]
  rfl

theorem readTable_path : readTable d q.path =
    some ({ schema := some (.ofList q.schema.text), table := .ofList q.table.text,
            calledAs := .ofList q.table.text }, []) := by
  have hschema : readName opensName q.path = some (q.schema.text, '.' :: q.table.text) :=
    q.schema.readName (border_cons.2 (by decide))
  have htable : readName opensName q.table.text = some (q.table.text, []) := by
    simpa using q.table.readName border_nil
  have htrim : Text.trimStart q.table.text = q.table.text := by
    simpa using q.table.trimStart (t := [])
  have hdot : (afterDot ('.' :: q.table.text)).bind (readName opensName) =
      some (q.table.text, []) := by
    rw [afterDot, trimStart_cons (by decide)]
    simp only [htrim, Option.bind_some, htable]
  simp only [readTable, hschema, hdot, q.schema.unquote, q.table.unquote]
  rfl

/-- From a schema and a table that one table is read, or none where the schema passes for a
modifier. -/
theorem schema_of_mem_readItems (hr : r ∈ readItems d more q.path) :
    r.schema = some (.ofList q.schema.text) := by
  have hborder : Border ('.' :: q.table.text) := border_cons.2 (by decide)
  have hhead : q.path.head? ≠ some '(' := by
    obtain ⟨c, cs, hpath, hc⟩ := q.head_path
    rw [hpath, List.head?_cons]
    rintro ⟨⟩
    exact absurd hc (by decide)
  by_cases hmodifier : (spells "ONLY" q.schema.text || spells "LATERAL" q.schema.text) = true
  · have htake : q.path.takeWhile isWordChar = q.schema.text :=
      takeWhile_plain (fun _ => isWordChar_of_isPlain) (fun _ => isWordChar_of_isBorder)
        q.schema.forall_isPlain hborder
    have hdrop : q.path.dropWhile isWordChar = '.' :: q.table.text :=
      dropWhile_plain (fun _ => isWordChar_of_isPlain) (fun _ => isWordChar_of_isBorder)
        q.schema.forall_isPlain hborder
    have hafter : afterModifier q.path = some ('.' :: q.table.text) := by
      rw [afterModifier, htake, if_pos hmodifier, hdrop, trimStart_cons (by decide)]
    have hskip : skipModifiers q.path = '.' :: q.table.text := by
      rw [skipModifiers_of_some hafter, skipModifiers_of_none rfl]
    have hnone : readItem d q.path = none := by
      rw [readItem_eq, hskip]
      rfl
    rw [readItems_of_none hnone] at hr
    cases hr
  · have hspells := Bool.or_eq_false_iff.1 (Bool.not_eq_true _ ▸ hmodifier)
    have hskip : skipModifiers q.path = q.path :=
      skipModifiers_plain q.schema.forall_isPlain hborder hspells.1 hspells.2
    have hread : readItem d q.path =
        some (some { schema := some (.ofList q.schema.text), table := .ofList q.table.text,
                     calledAs := .ofList q.table.text }, []) := by
      rw [readItem_eq, hskip, if_neg hhead, readTable_path]
      rfl
    have hnext : nextItem [] = none := rfl
    rw [readItems_of_readItem hread, hnext] at hr
    have hsame : r = { schema := some (.ofList q.schema.text), table := .ofList q.table.text,
                       calledAs := .ofList q.table.text } := by
      simpa using hr
    rw [hsame]

/-- Whatever its names are spelled like, no other schema is read from a selection. -/
theorem schema_of_mem_tables (hr : r ∈ tables d q.text) :
    r.schema = some (.ofList q.schema.text) := by
  obtain ⟨b, w, a, htext, hwhole, hnames, hblank, hmem⟩ := exists_of_mem_tablesFrom hr
  obtain ⟨c, a, rfl, hc⟩ : ∃ c a', a = c :: a' ∧ isBlank c = true := by
    cases a with
    | nil => cases hblank
    | cons c a => exact ⟨c, a, rfl, hblank⟩
  obtain rfl : c = ' ' := by
    rcases q.chars_text c (by rw [htext]; simp) with hentry | rfl | rfl
    · rw [isBlank_of_inEntry hentry] at hc
      cases hc
    · exact absurd hc (by decide)
    · rfl
  rw [trimStart_blank] at hmem
  rcases q.behind_word hwhole htext with rfl | rfl | rfl
  · exact absurd hnames (by decide)
  · have htrim : Text.trimStart ("FROM".toList ++ ' ' :: q.path) = "FROM".toList ++ ' ' :: q.path :=
      trimStart_cons (c := 'F') (by decide)
    rw [htrim, q.readItems_from] at hmem
    cases hmem
  · rw [q.trimStart_path] at hmem
    exact q.schema_of_mem_readItems hmem

/-! ### The words of a selection -/

theorem opensAsQuery_text : opensAsQuery q.text = true := rfl

/-- A keyword other than SELECT and FROM is a word of a selection if one of its names spells it. -/
theorem hasWord_text (hkey : k.toList.all (fun c => c.isUpper || c == '_') = true)
    (hselect : k ≠ "SELECT") (hfrom : k ≠ "FROM") :
    hasWord k q.text = true ↔ ∃ n ∈ q.names, sameLetters k.toList n.text = true := by
  have hself {k' : String} (hne : k ≠ k') (hk' : k'.toList.map keyLetter = k'.toList) :
      spells k k'.toList = false := by
    rw [spells, hk', beq_eq_false_iff_ne]
    exact fun h => hne (String.toList_injective h.symm)
  rw [hasWord_eq_any, List.any_eq_true]
  constructor
  · rintro ⟨w, hw, hspells⟩
    rcases q.mem_words_text.1 hw with rfl | rfl | ⟨n, hn, rfl⟩
    · rw [hself hselect (by decide)] at hspells
      cases hspells
    · rw [hself hfrom (by decide)] at hspells
      cases hspells
    · exact ⟨n, hn, by rwa [← spells_eq_sameLetters hkey n.forall_isPlain]⟩
  · rintro ⟨n, hn, hsame⟩
    exact ⟨n.text, q.mem_words_text.2 (.inr (.inr ⟨n, hn, rfl⟩)), by
      rwa [spells_eq_sameLetters hkey n.forall_isPlain]⟩

/-- A JOIN among the names of a selection opens a join, and one that compares nothing. -/
theorem joins_text : (hasWord "JOIN" q.text = false → joins q.text = []) ∧
    (hasWord "JOIN" q.text = true →
      ∃ j ∈ joins q.text, (j.condition.map equalities).getD [] = []) := by
  rw [hasWord]
  cases hfind : findWord (spells "JOIN") q.text with
  | none => exact ⟨fun _ => joins_of_none hfind, fun h => absurd h (by simp)⟩
  | some f =>
    refine ⟨fun h => absurd h (by simp), fun _ => ?_⟩
    refine ⟨_, by rw [joins_of_some hfind]; exact List.mem_cons_self, ?_⟩
    obtain ⟨b, -, htext, -⟩ := exists_of_findWord hfind
    have hnone : '=' ∉ q.text := q.not_mem_text (by decide) (by decide) (by decide)
    have hsegment : '=' ∉ upTo (spells "JOIN") f.after := fun hmem =>
      hnone (by rw [htext]; simp [upTo_isPrefix.subset hmem])
    unfold readJoin
    cases hon : findWord (spells "ON") (upTo (spells "JOIN") f.after) with
    | none => rfl
    | some on =>
      obtain ⟨b', -, hsplit, -⟩ := exists_of_findWord hon
      have hclause : '=' ∉ trim (clauseText on.after) := by
        rw [mem_trim (by decide)]
        exact fun hmem => hsegment (by rw [hsplit]; simp [upTo_isPrefix.subset hmem])
      simp [equalities, equalitiesIn_eq_nil hclause]

end Selection

end Querent.Sql
