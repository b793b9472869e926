import Querent.Proofs.Sql.Phase

/-! Which part of a statement is read as the condition of a join, and which part is not read at
all: it depends on the JOINs, ONs and clause keywords among the words of the statement. -/
namespace Querent.Sql

open Text

variable {s t x y w b a head after : List Char}

/-! ### What is read -/

/-- Whether a word is a JOIN or a clause keyword. -/
def endsPredicate (w : List Char) : Bool := spells "JOIN" w || isClauseWord w

/-- The condition of a join begins behind an ON and holds no JOIN and no clause keyword so far. -/
structure Opens (front behind : List Char) : Prop where
  phase : phaseOf front = .condition
  apart : Apart isWordChar front behind
  free : ∀ w ∈ words behind, endsPredicate w = false

theorem not_join {w : List Char} (h : endsPredicate w = false) : spells "JOIN" w = false :=
  (Bool.or_eq_false_iff.1 h).1

theorem not_clause {w : List Char} (h : endsPredicate w = false) : isClauseWord w = false :=
  (Bool.or_eq_false_iff.1 h).2

theorem clauseText_append (hs : ∀ w ∈ words s, endsPredicate w = false)
    (h : Apart isWordChar s t) : clauseText (s ++ t) = s ++ clauseText t :=
  upTo_append (fun w hw => not_clause (hs w hw)) h

theorem phaseOf_wholeWord (h : WholeWord b w a) (hw : spells "JOIN" w = true) :
    phaseOf (b ++ (w ++ a)) = phaseFrom .target (words a) := by
  have hnext : ∀ ph : Phase, ph.next w = .target := fun ph => by simp [Phase.next, hw]
  rw [phaseOf, h.words_eq, phaseFrom_append, phaseFrom_cons, hnext]

theorem exists_join (h : phaseOf s ≠ .outside) : ∃ w ∈ words s, spells "JOIN" w = true := by
  by_contra hnone
  push Not at hnone
  exact h (phaseFrom_outside fun w hw => by simpa using hnone w hw)

/-- Behind its last JOIN a text in the phase of a condition has an ON, and no clause keyword after
it. -/
theorem exists_on (hjoin : ∀ w ∈ words s, spells "JOIN" w = false)
    (h : phaseFrom .target (words s) = .condition) :
    ∃ b w a, s = b ++ (w ++ a) ∧ WholeWord b w a ∧ spells "ON" w = true ∧
      (∀ v ∈ words b, spells "ON" v = false) ∧ (∀ v ∈ words a, endsPredicate v = false) ∧
        phaseFrom .target (words (b ++ w)) = .condition := by
  have hon : ∃ w ∈ words s, spells "ON" w = true := by
    by_contra hnone
    push Not at hnone
    have htarget := phaseFrom_target hjoin fun w hw => by simpa using hnone w hw
    exact absurd (htarget.symm.trans h) (by decide)
  obtain ⟨b, w, a, rfl, hwhole, hw, hb⟩ := exists_first_word hon
  have hlast : words (b ++ w) = words b ++ [w] := by
    have hend : WholeWord b w [] := hwhole.congr_right (by simp)
    simpa using hend.words_eq
  rw [hwhole.words_eq] at hjoin h
  have hjb : ∀ v ∈ words b, spells "JOIN" v = false := fun v hv => hjoin v (by simp [hv])
  have hja : ∀ v ∈ words a, spells "JOIN" v = false := fun v hv => hjoin v (by simp [hv])
  have hnext : Phase.next .target w = .condition := by
    simp [Phase.next, hjoin w (by simp), hw]
  have hopen : phaseFrom .target (words (b ++ w)) = .condition := by
    rw [hlast, phaseFrom_append, phaseFrom_target hjb hb]
    exact hnext
  rw [phaseFrom_append, phaseFrom_target hjb hb, phaseFrom_cons, hnext,
    phaseFrom_condition hja] at h
  refine ⟨b, w, a, rfl, hwhole, hw, hb, fun v hv => ?_, hopen⟩
  split at h
  · simp at h
  · rename_i hnone
    rw [Bool.not_eq_true, List.any_eq_false] at hnone
    exact Bool.or_eq_false_iff.2 ⟨hja v hv, by simpa using hnone v hv⟩

/-- The condition behind the last JOIN of a text goes on up to the next keyword. -/
private theorem condition_last (hjoin : ∀ w ∈ words a, spells "JOIN" w = false)
    (hphase : phaseFrom .target (words a) = .condition)
    (hx : ∀ w ∈ words x, endsPredicate w = false) (hne : x ≠ [])
    (hleft : Apart isWordChar a x) (hright : Apart isWordChar x after) :
    ∃ front behind, a = front ++ behind ∧ front ≠ [] ∧
      phaseFrom .target (words front) = .condition ∧ Apart isWordChar front behind ∧
      (∀ w ∈ words behind, endsPredicate w = false) ∧
      (readJoin (upTo (spells "JOIN") (a ++ (x ++ after)))).condition =
        some (.ofList (trim (behind ++ (x ++ predicateText after)))) := by
  have hcut : upTo (spells "JOIN") (a ++ (x ++ after)) =
      a ++ (x ++ upTo (spells "JOIN") after) := by
    rw [upTo_append hjoin (hleft.append_right hne),
      upTo_append (fun w hw => not_join (hx w hw)) hright]
  obtain ⟨b, on, behind, rfl, hwhole, hon, hb, hfree, hphase⟩ := exists_on hjoin hphase
  have hxafter : Apart isWordChar x (upTo (spells "JOIN") after) := hright.of_isPrefix upTo_isPrefix
  have hbehind : Apart isWordChar behind x :=
    hleft.of_suffix ⟨b ++ on, by simp⟩
  have hclause : clauseText (behind ++ (x ++ upTo (spells "JOIN") after)) =
      behind ++ (x ++ predicateText after) := by
    rw [clauseText_append hfree (hbehind.append_right hne), clauseText_append hx hxafter]
    rfl
  have hon' : WholeWord b on (behind ++ (x ++ upTo (spells "JOIN") after)) :=
    hwhole.append_right (hleft.append_right hne)
  refine ⟨b ++ on, behind, by simp, by simp [hwhole.ne_nil], hphase, hwhole.apart_right, hfree, ?_⟩
  rw [hcut, List.append_assoc, List.append_assoc, condition_readJoin hon' hon hb, hclause]

/-- What stands in the phase of a condition, up to the next keyword, is read as part of one. -/
theorem exists_condition (hphase : phaseOf head = .condition)
    (hx : ∀ w ∈ words x, endsPredicate w = false) (hne : x ≠ [])
    (hleft : Apart isWordChar head x) (hright : Apart isWordChar x after) :
    ∃ front behind, head = front ++ behind ∧ Opens front behind ∧
      ∃ j ∈ joins (head ++ (x ++ after)),
        j.condition = some (.ofList (trim (behind ++ (x ++ predicateText after)))) := by
  induction head using word_induction (spells "JOIN") with
  | free head hnone =>
    obtain ⟨v, hv, hjoin⟩ := exists_join (s := head) (by rw [hphase]; decide)
    exact absurd hjoin (by simp [hnone v hv])
  | found b w a hwhole hw hb ih =>
    have hleft' : Apart isWordChar (b ++ (w ++ a)) (x ++ after) := hleft.append_right hne
    have hjoins : joins (b ++ (w ++ a) ++ (x ++ after)) =
        readJoin (upTo (spells "JOIN") (a ++ (x ++ after))) :: joins (a ++ (x ++ after)) := by
      rw [List.append_assoc, List.append_assoc]
      exact joins_wholeWord (hwhole.append_right hleft') hw hb
    have ha : Apart isWordChar a x := hleft.of_suffix ⟨b ++ w, by simp⟩
    -- The part of `a` before the condition opens it for the whole text as well.
    have hopens : ∀ front behind, a = front ++ behind → front ≠ [] →
        phaseFrom .target (words front) = .condition → Apart isWordChar front behind →
        (∀ v ∈ words behind, endsPredicate v = false) →
        Opens (b ++ (w ++ front)) behind := by
      rintro front behind rfl hfront hopen hapart hfree
      have hfw : WholeWord b w front := hwhole.congr_right fun c hc => by
        obtain ⟨d, front, rfl⟩ := List.exists_cons_of_ne_nil hfront
        exact hwhole.right c hc
      refine ⟨(phaseOf_wholeWord hfw hw).trans hopen, ?_, hfree⟩
      rw [← List.append_assoc]
      exact hapart.append_left hfront
    rw [phaseOf_wholeWord hwhole hw] at hphase
    by_cases hmore : ∃ v ∈ words a, spells "JOIN" v = true
    · have hlater : phaseOf a = .condition := (phaseFrom_of_join hmore).trans hphase
      obtain ⟨front, behind, rfl, hopen, j, hj, hcond⟩ := ih hlater ha
      have hfront : front ≠ [] := by
        rintro rfl
        exact absurd hopen.phase (by decide)
      have htarget : phaseFrom .target (words front) = .condition :=
        (phaseFrom_of_join (exists_join (by rw [hopen.phase]; decide))).trans hopen.phase
      refine ⟨b ++ (w ++ front), behind, by simp,
        hopens front behind rfl hfront htarget hopen.apart hopen.free, j, ?_, hcond⟩
      rw [hjoins]
      exact List.mem_cons_of_mem _ hj
    · push Not at hmore
      obtain ⟨front, behind, rfl, hfront, hopen, hapart, hfree, hcond⟩ := condition_last
        (fun v hv => by simpa using hmore v hv) hphase hx hne ha hright
      refine ⟨b ++ (w ++ front), behind, by simp,
        hopens front behind rfl hfront hopen hapart hfree, _, ?_, hcond⟩
      rw [hjoins]
      exact List.mem_cons_self

/-- Where no condition is open yet, the one that is open in the end is still to come. -/
theorem Opens.exists_between {front behind front' behind' : List Char} (h : Opens front behind)
    (hparts : front ++ behind = front' ++ behind') (hapart : Apart isWordChar front' behind')
    (hphase : phaseOf front' ≠ .condition) : ∃ m, front = front' ++ m ∧ behind' = m ++ behind := by
  rcases List.append_eq_append_iff.1 hparts with ⟨m, rfl, rfl⟩ | ⟨m, hfront, hbehind⟩
  · have hm : ∀ w ∈ words m, endsPredicate w = false := by
      have hsplit : words (m ++ behind') = words m ++ words behind' :=
        (hapart.of_suffix ⟨front, rfl⟩).words_append
      intro w hw
      exact h.free w (by simp [hsplit, hw])
    have hopen : phaseOf (front ++ m) = .condition := by
      have hnone : ¬ (words m).any isClauseWord = true := by
        rw [List.any_eq_true]
        rintro ⟨w, hw, hclause⟩
        simp [not_clause (hm w hw)] at hclause
      have hfront : phaseFrom .outside (words front) = .condition := h.phase
      rw [phaseOf, (h.apart.of_isPrefix ⟨behind', rfl⟩).words_append, phaseFrom_append, hfront,
        phaseFrom_condition fun w hw => not_join (hm w hw), if_neg hnone]
    exact absurd hopen hphase
  · exact ⟨m, hfront, hbehind⟩

/-! ### What is not read -/

/-- A text without JOIN and ON between two others, with no word running over its ends. -/
structure Inert (head x after : List Char) : Prop where
  free : ∀ w ∈ words x, spells "JOIN" w = false ∧ spells "ON" w = false
  left : Apart isWordChar head (x ++ after)
  right : Apart isWordChar x after

namespace Inert

theorem of_suffix {head' : List Char} (h : Inert head x after) (hs : head' <:+ head) :
    Inert head' x after := ⟨h.free, h.left.of_suffix hs, h.right⟩

theorem of_isPrefix {after' : List Char} (h : Inert head x after) (ht : after' <+: after) :
    Inert head x after' :=
  ⟨h.free, h.left.of_isPrefix ((List.prefix_append_right_inj x).2 ht), h.right.of_isPrefix ht⟩

theorem upTo_join (h : Inert head x after) (hhead : ∀ w ∈ words head, spells "JOIN" w = false) :
    upTo (spells "JOIN") (head ++ (x ++ after)) =
      head ++ (x ++ upTo (spells "JOIN") after) := by
  rw [upTo_append hhead h.left, upTo_append (fun w hw => (h.free w hw).1) h.right]

theorem joins_append (h : Inert head x after)
    (hhead : ∀ w ∈ words head, spells "JOIN" w = false) :
    joins (head ++ (x ++ after)) = joins after := by
  rw [Sql.joins_append hhead h.left, Sql.joins_append (fun w hw => (h.free w hw).1) h.right]

end Inert

/-- A condition that a clause keyword has ended is the same before every text. -/
private theorem condition_of_clause (hwhole : WholeWord b w a) (hw : spells "ON" w = true)
    (hb : ∀ v ∈ words b, spells "ON" v = false) (ha : ∃ v ∈ words a, isClauseWord v = true)
    (ht : Apart isWordChar (b ++ (w ++ a)) t) :
    (readJoin (b ++ (w ++ a) ++ t)).condition = some (.ofList (trim (clauseText a))) := by
  obtain ⟨d, k, e, rfl, hk, hclause, hd⟩ := exists_first_word ha
  have hkt : WholeWord d k (e ++ t) := hk.append_right (ht.of_suffix ⟨b ++ w, by simp⟩)
  have hcut : clauseText (d ++ (k ++ (e ++ t))) = clauseText (d ++ (k ++ e)) :=
    (upTo_eq_before hkt hclause hd).trans (upTo_eq_before hk hclause hd).symm
  have hwhole' : WholeWord b w (d ++ (k ++ e) ++ t) := hwhole.append_right ht
  rw [List.append_assoc, List.append_assoc, condition_readJoin hwhole' hw hb,
    List.append_assoc, List.append_assoc, hcut]

/-- Up to the next JOIN it makes no difference what stands behind a target or behind the clause
keyword that ends a condition. -/
private theorem condition_congr (hjoin : ∀ w ∈ words a, spells "JOIN" w = false)
    (hphase : phaseFrom .target (words a) ≠ .condition) (hx : Inert a x t) (hy : Inert a y t) :
    (readJoin (a ++ (x ++ t))).condition = (readJoin (a ++ (y ++ t))).condition := by
  by_cases hon : ∃ w ∈ words a, spells "ON" w = true
  · obtain ⟨b, on, c, rfl, hwhole, hon, hb⟩ := exists_first_word hon
    rw [hwhole.words_eq] at hjoin hphase
    have hbj : ∀ v ∈ words b, spells "JOIN" v = false := fun v hv => hjoin v (by simp [hv])
    have hcj : ∀ v ∈ words c, spells "JOIN" v = false := fun v hv => hjoin v (by simp [hv])
    have hnext : Phase.next .target on = .condition := by
      simp [Phase.next, hjoin on (by simp), hon]
    have hclause : ∃ v ∈ words c, isClauseWord v = true := by
      rw [phaseFrom_append, phaseFrom_target hbj hb, phaseFrom_cons, hnext,
        phaseFrom_condition hcj] at hphase
      simpa using hphase
    rw [condition_of_clause hwhole hon hb hclause hx.left,
      condition_of_clause hwhole hon hb hclause hy.left]
  · push Not at hon
    have ha : ∀ w ∈ words a, spells "ON" w = false := fun w hw => by simpa using hon w hw
    rw [condition_readJoin_append ha hx.left, condition_readJoin_append ha hy.left,
      condition_readJoin_append (fun w hw => (hx.free w hw).2) hx.right,
      condition_readJoin_append (fun w hw => (hy.free w hw).2) hy.right]

/-- A text that makes no difference to the condition of the last join before it makes none to the
conditions of a statement. -/
theorem conditions_congr_of {α : Type} {f : Option String → α} (hx : Inert head x after)
    (hy : Inert head y after)
    (hlast : ∀ a, a <:+ head → (∀ w ∈ words a, spells "JOIN" w = false) →
      phaseFrom .target (words a) = phaseOf head →
        f (readJoin (a ++ (x ++ upTo (spells "JOIN") after))).condition =
          f (readJoin (a ++ (y ++ upTo (spells "JOIN") after))).condition) :
    (joins (head ++ (x ++ after))).map (fun j => f j.condition) =
      (joins (head ++ (y ++ after))).map fun j => f j.condition := by
  induction head using word_induction (spells "JOIN") with
  | free head hhead => rw [hx.joins_append hhead, hy.joins_append hhead]
  | found b w a hwhole hw hb ih =>
    have hcut : ∀ u, Apart isWordChar (b ++ (w ++ a)) u → joins (b ++ (w ++ a) ++ u) =
        readJoin (upTo (spells "JOIN") (a ++ u)) :: joins (a ++ u) := by
      intro u hu
      rw [List.append_assoc, List.append_assoc]
      exact joins_wholeWord (hwhole.append_right hu) hw hb
    have hsuffix : a <:+ b ++ (w ++ a) := ⟨b ++ w, by simp⟩
    have hxa : Inert a x after := hx.of_suffix hsuffix
    have hya : Inert a y after := hy.of_suffix hsuffix
    rw [hcut _ hx.left, hcut _ hy.left, List.map_cons, List.map_cons]
    by_cases hmore : ∃ v ∈ words a, spells "JOIN" v = true
    · have hlater := ih hxa hya fun a' ha' hfree hphase => by
        rw [phaseOf, phaseFrom_of_join hmore, ← phaseOf_wholeWord hwhole hw] at hphase
        exact hlast a' (ha'.trans hsuffix) hfree hphase
      obtain ⟨d, k, e, rfl, hk, hkjoin, hd⟩ := exists_first_word hmore
      have hseg : ∀ u, Apart isWordChar (d ++ (k ++ e)) u →
          upTo (spells "JOIN") (d ++ (k ++ e) ++ u) = d := by
        intro u hu
        rw [List.append_assoc, List.append_assoc]
        exact upTo_eq_before (hk.append_right hu) hkjoin hd
      rw [hlater, hseg _ hxa.left, hseg _ hya.left]
    · push Not at hmore
      have ha : ∀ v ∈ words a, spells "JOIN" v = false := fun v hv => by simpa using hmore v hv
      have hcond := hlast a hsuffix ha (phaseOf_wholeWord hwhole hw).symm
      rw [hxa.upTo_join ha, hya.upTo_join ha, hcond, hxa.joins_append ha, hya.joins_append ha]

/-- Where no condition is open, the conditions of a statement do not depend on the text up to the
next JOIN or ON. -/
theorem conditions_congr (hphase : phaseOf head ≠ .condition) (hx : Inert head x after)
    (hy : Inert head y after) :
    (joins (head ++ (x ++ after))).map Join.condition =
      (joins (head ++ (y ++ after))).map Join.condition := by
  refine conditions_congr_of (f := id) hx hy fun a hsuffix ha htarget => ?_
  have hxa : Inert a x after := hx.of_suffix hsuffix
  have hya : Inert a y after := hy.of_suffix hsuffix
  rw [← htarget] at hphase
  exact condition_congr ha hphase (hxa.of_isPrefix upTo_isPrefix) (hya.of_isPrefix upTo_isPrefix)

end Querent.Sql
