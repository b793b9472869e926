import Querent.Proofs.Guard.Uncommented
import Querent.Proofs.Sql.Insertion

/-! When a block comment between two words of a statement makes no difference to the guard. It makes
none if no line comment is open at its end and no block is open where it begins. Two hyphens that no
line break in the block follows are taken for a line comment, and then no statement is accepted with
the text that it has without the block. -/
namespace Querent.Guard

open Text Sql

variable {keys : List ForeignKey} {policy : Policy} {sql sql' : String} {before after a : List Char}

/-- The verdict on a statement, with the text that runs up to its blanks. -/
def verdict (keys : List ForeignKey) (policy : Policy) (sql : String) :
    Except Violation (List Char) :=
  (validate keys policy sql).map fun out => normalize out.toList

/-- The guard sees a statement without its comments. -/
theorem validate_congr (h : stripComments sql.toList = stripComments sql'.toList) :
    validate keys policy sql = validate keys policy sql' := by
  unfold validate
  rw [h]

theorem opensBlock_withLimit (n : Nat) (s : List Char) :
    OpensBlock (withLimit n s) ↔ OpensBlock s := by
  obtain ⟨common, lead, tail, lead', tail', hs, hlimit, hmarks⟩ := exists_withLimit_between n s
  rw [hlimit, hs]
  refine (pair_infix_between (fun c hc => ?_) fun c hc => ?_).trans
    (pair_infix_between (fun c hc => ?_) fun c hc => ?_).symm
  · exact (hmarks c (by simp [hc])).2.1
  · exact (hmarks c (by simp [hc])).2.2
  · exact (hmarks c (by simp [hc])).2.1
  · exact (hmarks c (by simp [hc])).2.2

theorem count_withLimit (n : Nat) (s : List Char) : (withLimit n s).count '*' = s.count '*' := by
  obtain ⟨common, lead, tail, lead', tail', hs, hlimit, hmarks⟩ := exists_withLimit_between n s
  have hnone : (lead ++ tail ++ (lead' ++ tail')).count '*' = 0 :=
    List.count_eq_zero.2 fun hmem => (hmarks '*' hmem).2.2 rfl
  rw [hlimit, hs]
  simp only [List.count_append] at hnone ⊢
  omega

/-- A statement whose block ends in an open line comment is not accepted with the text that it has
without the block. -/
theorem verdict_ne_of_open {out out' : String} (h : ¬ HasLineComment (before ++ after))
    (hblock : ¬ OpensBlock (before ++ after)) (hclose : ¬ ['*', '/'] <:+: a) (hline : OpenLine a)
    (hwith : validate keys policy (.ofList (before ++ blockComment a ++ after)) = .ok out')
    (hwithout : validate keys policy (.ofList (before ++ after)) = .ok out) :
    normalize out'.toList ≠ normalize out.toList := by
  have huncommented : stripComments (before ++ after) = before ++ after := by
    rw [stripComments, dropLineComments_eq_self_iff.2 h, dropBlockComments_of_not_opensBlock hblock]
  obtain ⟨-, -, rfl⟩ := validate_eq_ok.1 hwith
  obtain ⟨-, -, rfl⟩ := validate_eq_ok.1 hwithout
  simp only [String.toList_ofList, huncommented]
  intro heq
  rcases stripComments_insert_of_open h hblock hclose hline with hopens | ⟨lost, rest, rfl, hstar, hrest⟩
  · have hpair := (opensBlock_withLimit policy.forceLimit _).2 hopens
    have hnormal := (pair_infix_normalize (by decide) (by decide) _).2 hpair
    rw [heq] at hnormal
    exact hblock ((opensBlock_withLimit _ _).1
      ((pair_infix_normalize (by decide) (by decide) _).1 hnormal))
  · have hcount := congrArg (List.count '*') heq
    rw [count_normalize (by decide), count_normalize (by decide), count_withLimit, count_withLimit,
      hrest] at hcount
    have hpos : 0 < lost.count '*' := List.count_pos_iff.2 hstar
    simp only [List.count_append] at hcount
    omega

/-- A block comment put into a text without comments makes no difference to the guard if no block opens
before it and no line comment is open at its end. Where neither kind of comment opens in the text, the
verdict stays, and with it the text up to its blanks, exactly if no line comment is open at the end of
the block or both statements are refused for one reason. -/
theorem validate_insert (keys : List ForeignKey) (policy : Policy) (before after : List Char)
    (hclose : ¬ ['*', '/'] <:+: a) :
    let sql := String.ofList (before ++ after)
    let sql' := String.ofList (before ++ blockComment a ++ after)
    (stripComments (before ++ after) = before ++ after → ¬ OpensBlock before → ¬ OpenLine a →
      validate keys policy sql' = validate keys policy sql) ∧
    (¬ HasLineComment (before ++ after) → ¬ OpensBlock (before ++ after) →
      (verdict keys policy sql' = verdict keys policy sql ↔
        ¬ OpenLine a ∨
          ∃ v, validate keys policy sql' = .error v ∧ validate keys policy sql = .error v)) := by
  intro sql sql'
  have hsame (huncommented : stripComments (before ++ after) = before ++ after)
      (hbefore : ¬ OpensBlock before) (hline : ¬ OpenLine a) :
      validate keys policy sql' = validate keys policy sql := by
    refine validate_congr ?_
    rw [String.toList_ofList, String.toList_ofList, huncommented]
    exact stripComments_insert (stripComments_eq_self_iff.1 huncommented) hbefore hclose hline
  refine ⟨hsame, fun hlines hblock => ⟨fun hverdict => ?_, ?_⟩⟩
  · refine or_iff_not_imp_left.2 fun hline => ?_
    have hline : OpenLine a := not_not.1 hline
    unfold verdict at hverdict
    cases hwith : validate keys policy sql' with
    | error v =>
      cases hwithout : validate keys policy sql with
      | error w =>
        rw [hwith, hwithout] at hverdict
        exact ⟨v, rfl, by rw [Except.error.inj hverdict]⟩
      | ok out =>
        rw [hwith, hwithout] at hverdict
        cases hverdict
    | ok out' =>
      cases hwithout : validate keys policy sql with
      | error w =>
        rw [hwith, hwithout] at hverdict
        cases hverdict
      | ok out =>
        rw [hwith, hwithout] at hverdict
        exact absurd (Except.ok.inj hverdict)
          (verdict_ne_of_open hlines hblock hclose hline hwith hwithout)
  · unfold verdict
    rintro (hline | ⟨v, hwith, hwithout⟩)
    · have huncommented : stripComments (before ++ after) = before ++ after := by
        rw [stripComments, dropLineComments_eq_self_iff.2 hlines,
          dropBlockComments_of_not_opensBlock hblock]
      have hbefore : ¬ OpensBlock before := fun hb =>
        hblock (hb.trans (List.prefix_append before after).isInfix)
      rw [hsame huncommented hbefore hline]
    · rw [hwith, hwithout]

/-- A quotation mark, a keyword and an ended line comment stand in the block. -/
theorem validate_insert_remark :
    let before := "SELECT id ".toList
    let after := "FROM orders".toList
    let remark := " it's -- not\n DROP ".toList
    ¬ ['*', '/'] <:+: remark ∧ ¬ OpenLine remark ∧
      validate [] strictPolicy (.ofList (before ++ blockComment remark ++ after)) =
        .ok "SELECT id FROM orders LIMIT 101" := by
  intro before after remark
  have hclose : ¬ ['*', '/'] <:+: remark := by decide +kernel
  have hline : ¬ OpenLine remark := by decide +kernel
  have hplain : validate [] strictPolicy (.ofList (before ++ after)) =
      .ok "SELECT id FROM orders LIMIT 101" := eq_ok_of_toOption (by decide +kernel)
  refine ⟨hclose, hline, ?_⟩
  rw [← hplain]
  exact (validate_insert [] strictPolicy before after hclose).1 (by decide +kernel)
    (by decide +kernel) hline

/-- The hyphens in the block take its close, and with it the rest of the statement. And where a mark in
a literal looks as if a block opened, the close of the inserted one ends that. -/
theorem comment_noticed :
    (stripComments "SELECT id FROM orders".toList = "SELECT id FROM orders".toList ∧
      validate [] strictPolicy "SELECT id FROM orders" = .ok "SELECT id FROM orders LIMIT 101" ∧
      validate [] strictPolicy "SELECT id /*a--b*/FROM orders" = .ok "SELECT id /*a LIMIT 101") ∧
    stripComments "SELECT '/*' FROM orders".toList = "SELECT '/*' FROM orders".toList ∧
      validate [] strictPolicy "SELECT '/*' FROM orders" = .ok "SELECT '/*' FROM orders LIMIT 101" ∧
      validate [] strictPolicy "SELECT '/*' /*a*/FROM orders" = .ok "SELECT 'FROM orders LIMIT 101" := by
  refine ⟨⟨by decide +kernel, ?_, ?_⟩, by decide +kernel, ?_, ?_⟩
  all_goals exact eq_ok_of_toOption (by decide +kernel)

end Querent.Guard
