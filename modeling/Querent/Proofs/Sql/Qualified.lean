import Querent.Proofs.Sql.Item
import Querent.Proofs.Sql.Scan
import Querent.Proofs.Sql.Squeeze

/-! A FROM with a qualified name behind it, wherever it stands in a statement: if it opens a clause,
the table is among those of the statement. -/
namespace Querent.Sql

open Text

variable {d : Dialect} {before b w a s n : List Char} {c : Char} {k : String} {r : TableRef}

/-! ### The scan for tables -/

/-- The scan comes to every word that names tables, whatever it finds before. -/
theorem mem_tablesFrom (hword : WholeWord b w a) (hnames : namesTables w = true)
    (hblank : (a.head?.map isBlank).getD false = true)
    (hopens : sameLetters w "FROM".toList = true → opensClause (b.reverse ++ before) = true)
    (hr : r ∈ readItems d (sameLetters w "FROM".toList) (trimStart a)) :
    r ∈ tablesFrom d before (b ++ (w ++ a)) := by
  -- along the text before the word, which each word found on the way shortens
  induction b using word_induction namesTables generalizing before with
  | free b hnone =>
    have hhere : (!sameLetters w "FROM".toList || opensClause (b.reverse ++ before)) = true := by
      cases hfrom : sameLetters w "FROM".toList with
      | false => rfl
      | true => simpa using hopens hfrom
    rw [tablesFrom_wholeWord hword hnames hnone]
    simp only [hblank, hhere, Bool.and_self, if_true]
    exact List.mem_append_left _ hr
  | found u v t hfound hv hu ih =>
    rw [List.append_assoc, List.append_assoc,
      tablesFrom_wholeWord (hfound.append_right hword.apart_left) hv hu]
    refine List.mem_append_right _ (ih hword.behind.behind ?_)
    simpa using hopens

/-- Every table found is one behind a word that names tables, with white space behind it. -/
theorem exists_of_mem_tablesFrom {t : List Char} (hr : r ∈ tablesFrom d before t) :
    ∃ b w a, t = b ++ (w ++ a) ∧ WholeWord b w a ∧ namesTables w = true ∧
      (a.head?.map isBlank).getD false = true ∧
        r ∈ readItems d (sameLetters w "FROM".toList) (trimStart a) := by
  induction t using word_induction namesTables generalizing before with
  | free t hnone =>
    rw [tablesFrom_of_free hnone] at hr
    cases hr
  | found u v t hfound hv hu ih =>
    rw [tablesFrom_wholeWord hfound hv hu] at hr
    rcases List.mem_append.1 hr with hhere | hlater
    · split at hhere
      next hcond => exact ⟨u, v, t, rfl, hfound, hv, (Bool.and_eq_true_iff.1 hcond).1, hhere⟩
      next => cases hhere
    · obtain ⟨b, w, a, rfl, hword, hw, hblank, hmem⟩ := ih hlater
      exact ⟨u ++ (v ++ b), w, a, by simp, hword.behind_word hfound, hw, hblank, hmem⟩

theorem isPlain_of_keyLetter (h : (keyLetter c).isUpper = true)
    (hne : keyLetter c ≠ 'S' ∧ keyLetter c ≠ 'K') : isPlain c = true := by
  have hupper : c.toUpper.isUpper = true := by
    unfold keyLetter at h hne
    split at hne
    · exact absurd rfl hne.1
    · split at hne
      · exact absurd rfl hne.2
      · simp_all
  have halpha : c.isAlpha = true := by
    by_cases hlower : c.isLower = true
    · exact Bool.or_eq_true_iff.2 (.inr hlower)
    · have hkeep : c.toUpper = c := by
        unfold Char.toUpper
        rw [dif_neg]
        intro h
        exact hlower (Bool.and_eq_true_iff.2 ⟨decide_eq_true h.1, decide_eq_true h.2⟩)
      rw [hkeep] at hupper
      exact Bool.or_eq_true_iff.2 (.inl hupper)
  simp [isPlain, Char.isAlphanum, halpha]

/-- Only plain words spell a keyword that has no S and no K. -/
theorem isPlain_of_spells (hk : k.toList.all (fun c => c.isUpper && c != 'S' && c != 'K') = true)
    (h : spells k w = true) : ∀ c ∈ w, isPlain c = true := by
  intro c hc
  rw [spells, beq_iff_eq] at h
  have hmem : keyLetter c ∈ k.toList := h ▸ List.mem_map_of_mem hc
  have hkey := List.all_eq_true.1 hk _ hmem
  simp only [Bool.and_eq_true, bne_iff_ne] at hkey
  exact isPlain_of_keyLetter hkey.1.1 ⟨hkey.1.2, hkey.2⟩

/-! ### The item with its schema -/

theorem schema_aliased (schema : Option String) (table t : List Char) :
    (aliased schema table t).1.schema = schema := by
  unfold aliased
  split <;> rfl

/-- A plain name before a dot and another name is the schema. -/
theorem readTable_qualified (hs : s.head?.any opensName = true ∧ ∀ c ∈ s, isPlain c = true)
    (hn : n.head?.any opensName = true) :
    ∃ r t, readTable d (s ++ '.' :: n) = some (r, t) ∧ r.schema = some (.ofList s) := by
  obtain ⟨hopens, hplain⟩ := hs
  cases s with
  | nil => simp at hopens
  | cons c s =>
    cases n with
    | nil => simp at hn
    | cons e n =>
      have hc : opensName c = true := by simpa using hopens
      have he : opensName e = true := by simpa using hn
      have hschema : readName opensName (c :: s ++ '.' :: e :: n) = some (c :: s, '.' :: e :: n) :=
        readName_plain hc (fun x hx => hplain x (by simp [hx])) (border_cons.2 rfl)
      have hdot : afterDot ('.' :: e :: n) = some (e :: n) :=
        congrArg some (trimStart_cons (isBlank_of_isPlain (isPlain_of_opensName he)))
      have htable : readName opensName (e :: n) =
          some (e :: n.takeWhile inName, n.dropWhile inName) := by
        rw [readName, if_pos he]
      rw [readTable, hschema]
      simp only [hdot, Option.bind_some, htable, unquote_plain hplain]
      exact ⟨_, _, rfl, schema_aliased _ _ _⟩

/-- So it is in an item, but for the words ONLY and LATERAL. -/
theorem readItem_qualified (hs : s.head?.any opensName = true ∧ ∀ c ∈ s, isPlain c = true)
    (hn : n.head?.any opensName = true) (honly : spells "ONLY" s = false)
    (hlateral : spells "LATERAL" s = false) :
    ∃ r t, readItem d (s ++ '.' :: n) = some (some r, t) ∧ r.schema = some (.ofList s) := by
  obtain ⟨r, t, hread, hschema⟩ := readTable_qualified (d := d) hs hn
  have hskip : skipModifiers (s ++ '.' :: n) = s ++ '.' :: n :=
    skipModifiers_plain hs.2 (border_cons.2 rfl) honly hlateral
  refine ⟨r, t, ?_, hschema⟩
  unfold readItem
  rw [hskip]
  split
  · rename_i hparen
    have hhead := congrArg List.head? hparen
    cases s with
    | nil => simp at hs
    | cons c s =>
      obtain rfl : c = '(' := by simpa using hhead
      exact absurd (hs.2 '(' (by simp)) (by decide)
  · rw [hread]
    rfl

/-! ### The statement as it is read -/

/-- A FROM as a whole word, white space, and a table with its schema, both names plain. -/
structure QualifiedFrom where
  before : List Char
  word : List Char
  gap : List Char
  schema : List Char
  table : List Char
  after : List Char
  left : before.getLast?.any isWordChar = false
  spelled : spells "FROM" word = true
  blank : gap ≠ [] ∧ gap.all isBlank = true
  named : schema.head?.any opensName = true ∧ schema.all isPlain = true
  tabled : table.head?.any opensName = true ∧ table.all isPlain = true

namespace QualifiedFrom

variable (f : QualifiedFrom)

/-- The text in which the FROM stands. -/
def text : List Char :=
  f.before ++ (f.word ++ (f.gap ++ (f.schema ++ '.' :: (f.table ++ f.after))))

/-- The text behind the FROM as it is read. -/
def item : List Char := f.schema ++ '.' :: (f.table ++ squeezeFrom false (trimEnd f.after))

theorem isPlain_of_mem_word : ∀ c ∈ f.word, isPlain c = true :=
  isPlain_of_spells (by decide) f.spelled

theorem word_ne_nil : f.word ≠ [] := by
  intro hnil
  have h := f.spelled
  rw [hnil] at h
  exact absurd h (by decide)

theorem isPlain_of_mem_schema : ∀ c ∈ f.schema, isPlain c = true := List.all_eq_true.1 f.named.2

theorem normalize_text :
    normalize f.text = squeezeFrom true f.before ++ (f.word ++ ' ' :: f.item) := by
  have hword : ∀ c ∈ f.word, isBlank c = false := fun c hc =>
    isBlank_of_isPlain (f.isPlain_of_mem_word c hc)
  have hgap : ∀ c ∈ f.gap, isBlank c = true := List.all_eq_true.1 f.blank.2
  have hpath : ∀ c ∈ f.schema ++ '.' :: f.table, isBlank c = false := by
    intro c hc
    simp only [List.mem_append, List.mem_cons] at hc
    rcases hc with hc | rfl | hc
    · exact isBlank_of_isPlain (f.isPlain_of_mem_schema c hc)
    · decide
    · exact isBlank_of_isPlain (List.all_eq_true.1 f.tabled.2 c hc)
  have htext : f.text =
      f.before ++ (f.word ++ (f.gap ++ ((f.schema ++ '.' :: f.table) ++ f.after))) := by simp [text]
  rw [htext, normalize_append ⟨f.word_ne_nil, hword⟩ ⟨f.blank.1, hgap⟩ ⟨by simp, hpath⟩]
  simp [item]

/-- The FROM stays a whole word. -/
theorem wholeWord_squeezed : WholeWord (squeezeFrom true f.before) f.word (' ' :: f.item) where
  ne_nil := f.word_ne_nil
  chars c hc := isWordChar_of_isPlain (f.isPlain_of_mem_word c hc)
  left := isWordChar_getLast?_squeezeFrom.2 ((Option.any_eq_false _ _).1 f.left)
  right := by
    have hspace : isWordChar ' ' = false := by decide
    simp [hspace]

/-- If the FROM opens a clause, its table is found with its schema. -/
theorem exists_mem_tables (d : Dialect) (hopens : opensClause f.before.reverse = true)
    (honly : spells "ONLY" f.schema = false) (hlateral : spells "LATERAL" f.schema = false) :
    ∃ r ∈ tables d (normalize f.text), r.schema = some (.ofList f.schema) := by
  have htable : (f.table ++ squeezeFrom false (trimEnd f.after)).head?.any opensName = true := by
    have hopen := f.tabled.1
    cases ht : f.table with
    | nil => simp [ht] at hopen
    | cons c t => simpa [ht] using hopen
  obtain ⟨r, t, hread, hschema⟩ :=
    readItem_qualified (d := d) ⟨f.named.1, f.isPlain_of_mem_schema⟩ htable honly hlateral
  have hmem {more : Bool} : r ∈ readItems d more (trimStart (' ' :: f.item)) := by
    have htrim : trimStart (' ' :: f.item) = f.item := by
      obtain ⟨c, s, hs⟩ := List.exists_cons_of_ne_nil (l := f.schema) <| by
        rintro hnil
        simpa [hnil] using f.named.1
      rw [trimStart_blank, item, hs, List.cons_append, trimStart_cons]
      exact isBlank_of_isPlain (f.isPlain_of_mem_schema c (by simp [hs]))
    rw [htrim, item, readItems_of_readItem hread]
    simp
  have hnames : namesTables f.word = true := by simp [namesTables, f.spelled]
  refine ⟨r, ?_, hschema⟩
  rw [f.normalize_text]
  refine mem_tablesFrom f.wholeWord_squeezed hnames rfl (fun _ => ?_) hmem
  rw [List.append_nil, opensClause_squeezeFrom, hopens]

end QualifiedFrom

end Querent.Sql
