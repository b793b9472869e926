import Querent.Proofs.Query.JoinQuery
import Querent.Proofs.Sql.Phase

/-! The joins of a query as they are read: each with its table and the condition written with it. -/
namespace Querent.Sql

open Text

namespace Seeks

variable {ks : List String} {p : List Char → Bool} {s t w : List Char}

theorem findWord_blank_word (hp : Seeks ks p) (hs : Lacks ks s) (hne : w ≠ [])
    (hw : ∀ c ∈ w, isPlain c = true) (hk : isOneOf ks w = true) (ht : Border t) :
    findWord p (s ++ ' ' :: (w ++ t)) = some ⟨' ' :: s.reverse, w, t⟩ := by
  rw [findWord, hp.findFrom_blank_word hs.flat hs.free hne hw hk ht, List.append_nil]

theorem upTo_eq_self (hp : Seeks ks p) (hs : Lacks ks s) : upTo p s = s := by
  have hfind : findWord p s = none := hp.findFrom_eq_none hs.flat hs.free
  rw [upTo, hfind]

theorem upTo_blank_word (hp : Seeks ks p) (hs : Lacks ks s) (hne : w ≠ [])
    (hw : ∀ c ∈ w, isPlain c = true) (hk : isOneOf ks w = true) (ht : Border t) :
    upTo p (s ++ ' ' :: (w ++ t)) = s ++ [' '] := by
  rw [upTo, hp.findWord_blank_word hs hne hw hk ht]
  simp

end Seeks

namespace JoinQuery

/-- What is read of a join. -/
def Clause.join (j : Clause) : Join :=
  { target := .ofList j.item.text
    condition := some (.ofList j.condition) }

/-- What stands between the condition of a join and the next JOIN. -/
def gap : List Link → List Char
  | [] => []
  | ⟨true, j⟩ :: ls => Link.text ⟨true, j⟩ ++ gap ls
  | ⟨false, j⟩ :: _ => j.kind.lead ++ [' ']

/-- If it is more than a blank, it opens with a word that ends the condition. -/
theorem gap_eq (ls : List Link) : gap ls = [] ∨ gap ls = [' '] ∨ ∃ w t, gap ls = ' ' :: (w ++ t) ∧
    (w ≠ [] ∧ w.all isPlain = true) ∧ isOneOf conditionEnds w = true ∧ Border t := by
  rcases ls with _ | ⟨⟨_ | _, j⟩, ls⟩
  · exact .inl rfl
  · rcases lead_eq j.kind with hlead | ⟨w, hlead, hw, hk⟩
    · exact .inr (.inl (by rw [gap, hlead, List.nil_append]))
    · exact .inr (.inr ⟨w, [' '], by rw [gap, hlead, List.cons_append], hw, hk, border_cons.2 rfl⟩)
  · exact .inr (.inr ⟨"STRAIGHT_JOIN".toList, ' ' :: (j.segment ++ gap ls), rfl, by decide, by decide,
      border_cons.2 rfl⟩)

private theorem seeks_join : Seeks ["JOIN"] (spells "JOIN") := seeks_spells (by decide)

private theorem seeks_on : Seeks ["ON"] (spells "ON") := seeks_spells (by decide)

private theorem seeks_conditionEnds :
    Seeks conditionEnds fun w => conditionEnds.any fun k => spells k w := seeks_any (by decide)

private theorem append_clause (s t : List Char) (j : Clause) :
    s ++ (j.text ++ t) = (s ++ j.kind.lead) ++
      ' ' :: ("JOIN".toList ++ ' ' :: (j.segment ++ t)) := by
  simp [Clause.text]

private theorem append_lead {s : List Char} (hs : Lacks ["JOIN"] s) (kind : JoinKind) :
    Lacks ["JOIN"] (s ++ kind.lead) :=
  hs.append ((lead_lacks kind).mono (by decide)) kind.border

/-- Behind a text without JOIN a join that is written STRAIGHT_JOIN brings none either. -/
private theorem append_straight {s : List Char} (hs : Lacks ["JOIN"] s) (j : Clause) :
    Lacks ["JOIN"] (s ++ Link.text ⟨true, j⟩) :=
  hs.append ((Link.straight_lacks j).mono (by decide)) (Link.border _)

/-- Behind a text without JOIN the search stops at the JOIN of the clause. -/
private theorem find_join {s : List Char} (hs : Lacks ["JOIN"] s) (j : Clause) (t : List Char) :
    findWord (spells "JOIN") (s ++ (j.text ++ t)) =
      some ⟨' ' :: (s ++ j.kind.lead).reverse, "JOIN".toList, ' ' :: (j.segment ++ t)⟩ := by
  rw [append_clause]
  exact seeks_join.findWord_blank_word (append_lead hs j.kind) (by decide)
    (List.all_eq_true.1 (by decide)) (by decide) (border_cons.2 rfl)

private theorem upTo_join {s : List Char} (hs : Lacks ["JOIN"] s) (ls : List Link) :
    upTo (spells "JOIN") (s ++ ls.flatMap Link.text) = s ++ gap ls := by
  induction ls generalizing s with
  | nil =>
    rw [List.flatMap_nil, List.append_nil, seeks_join.upTo_eq_self hs, gap, List.append_nil]
  | cons l ls ih =>
    obtain ⟨_ | _, j⟩ := l
    · have htext : s ++ (Link.mk false j :: ls).flatMap Link.text =
          s ++ (j.text ++ ls.flatMap Link.text) := rfl
      rw [htext, append_clause, gap, ← List.append_assoc]
      exact seeks_join.upTo_blank_word (append_lead hs j.kind) (by decide)
        (List.all_eq_true.1 (by decide)) (by decide) (border_cons.2 rfl)
    · rw [List.flatMap_cons, gap, ← List.append_assoc, ← List.append_assoc]
      exact ih (append_straight hs j)

/-- The condition ends before the word that opens the next join. -/
private theorem clauseText_gap (j : Clause) (ls : List Link) :
    trim (clauseText (' ' :: (j.condition ++ gap ls))) = j.condition := by
  have hspaced : Spaced j.condition := conjunction_spaced _ _
  have hlacks : Lacks conditionEnds (' ' :: j.condition) :=
    .cons (by decide) (j.condition_lacks.mono (by decide))
  rcases gap_eq ls with hgap | hgap | ⟨w, t, hgap, ⟨hne, hw⟩, hk, ht⟩
  · rw [hgap, List.append_nil, clauseText, seeks_conditionEnds.upTo_eq_self hlacks,
      hspaced.trim_blank]
  · have hall : Lacks conditionEnds (' ' :: (j.condition ++ [' '])) :=
      hlacks.append_cons (by decide) .nil
    rw [hgap, clauseText, seeks_conditionEnds.upTo_eq_self hall, hspaced.trim_blanks]
  · have hcut := seeks_conditionEnds.upTo_blank_word hlacks hne (List.all_eq_true.1 hw) hk ht
    rw [List.cons_append] at hcut
    rw [hgap, clauseText, hcut, List.cons_append, hspaced.trim_blanks]

theorem Clause.readJoin (j : Clause) (ls : List Link) :
    readJoin (' ' :: (j.segment ++ gap ls)) = j.join := by
  have hitem : Lacks ["ON"] (' ' :: j.item.text) :=
    .cons (by decide) ((item_lacks j.item).mono (by decide))
  have htext : ' ' :: (j.segment ++ gap ls) =
      (' ' :: j.item.text) ++ ' ' :: ("ON".toList ++ ' ' :: (j.condition ++ gap ls)) := by
    simp [Clause.segment]
  have hfind : findWord (spells "ON") (' ' :: (j.segment ++ gap ls)) =
      some ⟨' ' :: (' ' :: j.item.text).reverse, "ON".toList, ' ' :: (j.condition ++ gap ls)⟩ := by
    rw [htext]
    exact seeks_on.findWord_blank_word hitem (by decide) (List.all_eq_true.1 (by decide))
      (by decide) (border_cons.2 rfl)
  have htarget : trim (' ' :: (' ' :: j.item.text).reverse).reverse = j.item.text := by
    rw [List.reverse_cons, List.reverse_reverse, List.cons_append]
    exact (item_spaced j.item).trim_blanks
  rw [Sql.readJoin, hfind]
  simp only [htarget, clauseText_gap, Clause.join]

/-- Every join but those written STRAIGHT_JOIN is read with its table and its condition, in order. -/
private theorem joins_flatMap {s : List Char} (hs : Lacks ["JOIN"] s) (ls : List Link) :
    Sql.joins (s ++ ls.flatMap Link.text) = (plainJoins ls).map Clause.join := by
  induction ls generalizing s with
  | nil =>
    rw [List.flatMap_nil, List.append_nil]
    exact joins_of_none (seeks_join.findFrom_eq_none hs.flat hs.free)
  | cons l ls ih =>
    obtain ⟨_ | _, j⟩ := l
    · have hsegment : Lacks ["JOIN"] (' ' :: j.segment) :=
        .cons (by decide) (j.segment_lacks (by decide) (by decide))
      have hread := upTo_join hsegment ls
      have hrest := ih hsegment
      rw [List.cons_append] at hread hrest
      have htext : s ++ (Link.mk false j :: ls).flatMap Link.text =
          s ++ (j.text ++ ls.flatMap Link.text) := rfl
      rw [htext, joins_of_some (find_join hs j _)]
      simp only [hread, hrest, List.cons_append, Clause.readJoin, plainJoins, List.map_cons]
    · rw [List.flatMap_cons, ← List.append_assoc, plainJoins]
      exact ih (append_straight hs j)

end JoinQuery

theorem LinkedQuery.joins_text (q : LinkedQuery) :
    Sql.joins q.text = q.withoutStraight.joins.map JoinQuery.Clause.join := by
  have hselect : Lacks ["JOIN"] ("SELECT * FROM".toList ++ ' ' :: q.item.text) :=
    .append_cons (by decide) (by decide) ((JoinQuery.item_lacks q.item).mono (by decide))
  have htext : q.text = ("SELECT * FROM".toList ++ ' ' :: q.item.text) ++
      q.links.flatMap JoinQuery.Link.text := by
    rw [List.append_assoc]
    rfl
  rw [htext, JoinQuery.joins_flatMap hselect]
  rfl

end Querent.Sql
