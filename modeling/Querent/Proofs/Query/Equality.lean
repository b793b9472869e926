import Querent.Proofs.Query.Parts
import Querent.Proofs.Sql.Leads
import Querent.Proofs.Sql.Spelling

/-! Conditions of joins as the equality reader takes them apart: every equality of two columns is
found, with the parts of both names. -/
namespace Querent.Sql

open Text

variable {banned : List String} {t w : List Char}

namespace ColumnPath

/-- The names of a column, its own last. -/
def parts (c : ColumnPath banned) : List (Name banned) := c.qualifiers ++ [c.name]

/-- The names of a column as texts. -/
def names (c : ColumnPath banned) : List String := c.parts.map fun n => .ofList n.text

theorem exists_cons (c : ColumnPath banned) : ∃ d ds, c.text = d :: ds ∧ opensName d = true := by
  obtain ⟨qs, n⟩ := c
  cases qs with
  | nil => exact n.exists_cons
  | cons q qs =>
    obtain ⟨d, ds, h, hd⟩ := q.exists_cons
    exact ⟨d, ds ++ '.' :: textBehind n qs, by simp [text, textBehind, h], hd⟩

/-- A column is written with its names, each of them bare. -/
theorem exists_path (c : ColumnPath banned) : ∃ is, Path c.text is ∧
    (is.map fun i => String.ofList i.name) = c.names ∧ (∀ i ∈ is, i.isLatin = true) ∧
      is.length = c.qualifiers.length + 1 := by
  have hident : ∀ n : Name banned, ∃ i : Ident, i.text = n.text ∧ i.name = n.text ∧
      i.isLatin = true := by
    intro n
    obtain ⟨d, ds, hn, hd⟩ := n.exists_cons
    have hchars : ds.all inName = true := List.all_eq_true.2 fun e he =>
      inName_of_isPlain (n.forall_isPlain e (by simp [hn, he]))
    have hdigit : d.isDigit = false := by
      have hopens : isPlain d = true → opensName d = true → d.isDigit = false :=
        forall_isPlain (P := fun d => opensName d = true → d.isDigit = false) (by decide)
      exact hopens (isPlain_of_opensName hd) hd
    exact ⟨.bare d ds (by simp [inName_of_opensName hd, hdigit]) hchars, hn.symm, hn.symm, hd⟩
  obtain ⟨qs, n⟩ := c
  simp only [text, names, parts]
  induction qs with
  | nil =>
    obtain ⟨i, htext, hname, hlatin⟩ := hident n
    refine ⟨[i], ?_, by simp [hname], by simpa using hlatin, rfl⟩
    rw [textBehind, ← htext]
    exact .one i
  | cons q qs ih =>
    obtain ⟨i, htext, hname, hlatin⟩ := hident q
    obtain ⟨is, hpath, hnames, hall, hlength⟩ := ih
    refine ⟨i :: is, ?_, by simp [hname, hnames], by simpa [hlatin] using hall, by simp [hlength]⟩
    have hstep : Path (i.text ++ ([] ++ '.' :: ([] ++ textBehind n qs))) (i :: is) :=
      .cons i (by simp) (by simp) hpath
    rw [textBehind, ← htext]
    exact hstep

theorem isPlain_or_eq_dot (c : ColumnPath banned) : ∀ d ∈ c.text, isPlain d = true ∨ d = '.' := by
  obtain ⟨qs, n⟩ := c
  simp only [text]
  induction qs with
  | nil => exact fun d hd => .inl (n.forall_isPlain d hd)
  | cons q qs ih =>
    intro d hd
    rcases List.mem_append.1 hd with hd | hd
    · exact .inl (q.forall_isPlain d hd)
    · rcases List.mem_cons.1 hd with rfl | hd
      · exact .inr rfl
      · exact ih d hd

end ColumnPath

namespace ColumnPair

/-- Both sides are qualified, with three names at most. -/
structure Qualified (e : ColumnPair banned) : Prop where
  left : e.left.qualifiers ≠ [] ∧ e.left.qualifiers.length ≤ 2
  right : e.right.qualifiers ≠ [] ∧ e.right.qualifiers.length ≤ 2

/-- What an equality of columns says. -/
def equality (e : ColumnPair banned) : Equality := ⟨e.left.names, e.right.names⟩

variable {e : ColumnPair banned}

private theorem keepsStep_text (e : ColumnPair banned) : keepsStep none e.text = true := by
  refine keepsStep_of_not_isQuote fun d hd => ?_
  have hcolumn : ∀ c : ColumnPath banned, ∀ d ∈ c.text, isQuote d = false := by
    intro c d hd
    rcases c.isPlain_or_eq_dot d hd with hplain | rfl
    · exact isQuote_of_inName (inName_of_isPlain hplain)
    · decide
  rcases List.mem_append.1 hd with hd | hd
  · exact hcolumn e.left d hd
  · rcases List.mem_append.1 hd with hd | hd
    · have hgap : " = ".toList.all (fun d => !isQuote d) = true := by decide
      simpa using List.all_eq_true.1 hgap d hd
    · exact hcolumn e.right d hd

/-- An equality of qualified columns is a comparison of their names. -/
theorem exists_compared (h : e.Qualified) : ∃ left right, Compared e.text left right ∧
    (∀ i ∈ left ++ right, i.isLatin = true) ∧
    (left.map fun i => String.ofList i.name) = e.left.names ∧
    (right.map fun i => String.ofList i.name) = e.right.names := by
  obtain ⟨left, hleft, hlnames, hllatin, hllength⟩ := e.left.exists_path
  obtain ⟨right, hright, hrnames, hrlatin, hrlength⟩ := e.right.exists_path
  have hcolumn : ∀ {w is} {c : ColumnPath banned}, Path w is →
      is.length = c.qualifiers.length + 1 → c.qualifiers ≠ [] ∧ c.qualifiers.length ≤ 2 →
        WrittenColumn w is := by
    intro w is c hpath hlength hq
    have := List.length_pos_iff.2 hq.1
    exact ⟨hpath, by omega, by omega⟩
  have hcompared : Compared e.text left right :=
    .mk (hcolumn hleft hllength h.left) (hcolumn hright hrlength h.right) isBlank_of_mem_space
      isBlank_of_mem_space
  exact ⟨left, right, hcompared, by
    simpa [or_imp, forall_and] using ⟨hllatin, hrlatin⟩, hlnames, hrnames⟩

/-- Before the end of an item an equality of columns is found with its names. -/
theorem equalitiesIn_text (h : e.Qualified) (ht : ItemEnd t) :
    equalitiesIn (e.text ++ t) = e.equality :: equalitiesIn t := by
  obtain ⟨left, right, hcompared, hlatin, hleft, hright⟩ := exists_compared h
  have hsides := List.forall_mem_append.1 hlatin
  have hapart : Apart inName e.text t := fun _ _ d hd _ => inName_of_isBorder (ht.border d hd)
  have hcall : ∀ c ∈ (trimStart t).head?, c ≠ '(' := by
    rintro c hc rfl
    exact ht.head?_trimStart hc
  rw [equalitiesIn_of_some (hcompared.readEquality hsides.1 hsides.2 hapart ht.afterDot),
    hcompared.keepEquality e.keepsStep_text hcall, hleft, hright]
  rfl

end ColumnPair

/-- A word before another name is no side of an equality. -/
private theorem readEquality_word {c d : Char} {cs ds : List Char} (hc : opensName c = true)
    (hcs : ∀ e ∈ cs, isPlain e = true) (hd : opensName d = true) :
    readEquality (c :: cs ++ ' ' :: d :: ds) = none := by
  have hname := readName_plain hc hcs (border_cons.2 (by decide : isBorder ' ' = true))
    (t := ' ' :: d :: ds)
  refine readEquality_eq_none hname ?_
  intro e he
  rw [trimStart_blank, trimStart_cons (isBlank_of_isPlain (isPlain_of_opensName hd))] at he
  obtain rfl : d = e := by simpa using he
  constructor <;> (rintro rfl; exact absurd hd (by decide))

/-- The AND between two equalities is passed over. -/
private theorem equalitiesIn_and {d : Char} {ds : List Char} (hd : opensName d = true) :
    equalitiesIn (" AND ".toList ++ d :: ds) = equalitiesIn (d :: ds) := by
  have hand : readEquality ('A' :: ['N', 'D'] ++ ' ' :: d :: ds) = none :=
    readEquality_word (by decide) (List.all_eq_true.1 (by decide)) hd
  have hnd : readEquality ('N' :: ['D'] ++ ' ' :: d :: ds) = none :=
    readEquality_word (by decide) (List.all_eq_true.1 (by decide)) hd
  have hlast : readEquality ('D' :: [] ++ ' ' :: d :: ds) = none :=
    readEquality_word (by decide) (by simp) hd
  have hblank : ∀ s, readEquality (' ' :: s) = none := fun _ => rfl
  calc equalitiesIn (" AND ".toList ++ d :: ds)
      = equalitiesIn ('A' :: ['N', 'D'] ++ ' ' :: d :: ds) := equalitiesIn_of_none (hblank _)
    _ = equalitiesIn ('N' :: ['D'] ++ ' ' :: d :: ds) := equalitiesIn_of_none hand
    _ = equalitiesIn ('D' :: [] ++ ' ' :: d :: ds) := equalitiesIn_of_none hnd
    _ = equalitiesIn (' ' :: d :: ds) := equalitiesIn_of_none hlast
    _ = equalitiesIn (d :: ds) := equalitiesIn_of_none (hblank _)

theorem conjunction_exists_cons (e : ColumnPair banned) (es : List (ColumnPair banned)) :
    ∃ d ds, conjunction e es = d :: ds ∧ opensName d = true := by
  obtain ⟨d, ds, hd, hopen⟩ := e.left.exists_cons
  cases es with
  | nil => exact ⟨d, _, by simp [conjunction, ColumnPair.text, hd]; rfl, hopen⟩
  | cons e' es => exact ⟨d, _, by simp [conjunction, ColumnPair.text, hd]; rfl, hopen⟩

/-- In a condition every equality is found, in order and with the names of both sides. -/
theorem equalitiesIn_conjunction {e : ColumnPair banned} {es : List (ColumnPair banned)}
    (h : ∀ e' ∈ e :: es, e'.Qualified) :
    equalitiesIn (conjunction e es) = (e :: es).map ColumnPair.equality := by
  induction es generalizing e with
  | nil =>
    have hone := ColumnPair.equalitiesIn_text (h e (by simp)) .nil
    rw [List.append_nil] at hone
    rw [conjunction, hone, equalitiesIn]
    rfl
  | cons e' es ih =>
    obtain ⟨d, ds, hd, hopen⟩ := conjunction_exists_cons e' es
    have hand : ItemEnd (" AND ".toList ++ conjunction e' es) :=
      .ofKeyword (k := "AND") (border_cons.2 (by decide)) (by decide)
    rw [conjunction, ColumnPair.equalitiesIn_text (h e (by simp)) hand, hd, equalitiesIn_and hopen,
      ← hd, ih fun e'' he => h e'' (by simp [he])]
    rfl

end Querent.Sql
