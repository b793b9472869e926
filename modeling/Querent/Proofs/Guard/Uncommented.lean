import Querent.Proofs.Guard.Executed
import Querent.Proofs.Sql.Comments

/-! When the text that runs holds a comment, and with it perhaps the row limit. The limit and the
trimming bring none; what brings one is the removal of a block comment between two characters that
make a comment together. -/
namespace Querent.Guard

open Text Sql

variable {keys : List ForeignKey} {policy : Policy} {sql out : String}

/-- A text with a limit and the text without it differ in what stands around their common part, and no
mark of a comment stands there. -/
theorem exists_withLimit_between (n : Nat) (s : List Char) :
    ∃ common lead tail lead' tail', s = lead ++ (common ++ tail) ∧
      withLimit n s = lead' ++ (common ++ tail') ∧
      ∀ c ∈ lead ++ tail ++ (lead' ++ tail'), c ≠ '-' ∧ c ≠ '/' ∧ c ≠ '*' := by
  unfold withLimit
  split
  · exact ⟨s, [], [], [], [], by simp, by simp, by simp⟩
  · obtain ⟨lead, tail, hs, hlead, htail⟩ := exists_body_append s
    refine ⟨body s, lead, tail, [], (" LIMIT " ++ toString n).toList, hs, rfl, ?_⟩
    have hblank {c : Char} (hc : isBlank c = true) : c ≠ '-' ∧ c ≠ '/' ∧ c ≠ '*' :=
      forall_isBlank (P := fun c => c ≠ '-' ∧ c ≠ '/' ∧ c ≠ '*') (by decide) hc
    intro c hc
    simp only [List.nil_append, List.mem_append, String.toList_append] at hc
    rcases hc with (hc | hc) | hc | hc
    · exact hblank (hlead c hc)
    · rcases htail c hc with rfl | hc
      · decide
      · exact hblank hc
    · have hall : ∀ d ∈ " LIMIT ".toList, d ≠ '-' ∧ d ≠ '/' ∧ d ≠ '*' := by simp
      exact hall c hc
    · have hdigit : c.isDigit = true := isDigit_of_mem_toString hc
      refine ⟨?_, ?_, ?_⟩ <;> rintro rfl <;> exact absurd hdigit (by decide)

/-- A text with a limit holds the comments that it holds without. -/
theorem hasComment_withLimit (n : Nat) (s : List Char) :
    (HasLineComment (withLimit n s) ↔ HasLineComment s) ∧
      (HasBlockComment (withLimit n s) ↔ HasBlockComment s) := by
  obtain ⟨common, lead, tail, lead', tail', hs, hlimit, hmarks⟩ := exists_withLimit_between n s
  have hclear {c : Char} (hc : c ∈ lead ++ tail ++ (lead' ++ tail')) : c ≠ '-' ∧ c ≠ '/' :=
    ⟨(hmarks c hc).1, (hmarks c hc).2.1⟩
  have hwith := hasComment_between (a := lead') (s := common) (t := tail')
    (fun c hc => hclear (by simp [hc])) fun c hc => hclear (by simp [hc])
  have hwithout := hasComment_between (a := lead) (s := common) (t := tail)
    (fun c hc => hclear (by simp [hc])) fun c hc => hclear (by simp [hc])
  rw [← hs] at hwithout
  rw [hlimit]
  exact ⟨hwith.1.trans hwithout.1.symm, hwith.2.trans hwithout.2.symm⟩

/-- The text that runs reads as it is to one who takes its comments out exactly if it has none. It has
a line comment exactly if the removal of a block leaves two hyphens side by side, and a block comment
exactly if it leaves a slash and a star side by side with a close behind them. -/
theorem validate_uncommented (h : validate keys policy sql = .ok out) :
    (stripComments out.toList = out.toList ↔ Uncommented out.toList) ∧
    (HasLineComment out.toList ↔
      ∃ l m, remains (dropLineComments sql.toList) = l ++ m ∧ MeetInLine l.flatten m.flatten) ∧
    (HasBlockComment out.toList ↔
      ∃ l m, remains (dropLineComments sql.toList) = l ++ m ∧ MeetInBlock l.flatten m.flatten) := by
  obtain ⟨-, -, rfl⟩ := validate_eq_ok.1 h
  rw [String.toList_ofList]
  have hlimit := hasComment_withLimit policy.forceLimit (stripComments sql.toList)
  have hlines := hasLineComment_dropBlockComments_iff
    (not_hasLineComment_dropLineComments sql.toList)
  exact ⟨stripComments_eq_self_iff, hlimit.1.trans hlines,
    hlimit.2.trans hasBlockComment_dropBlockComments_iff⟩

theorem validate_glued_hyphens :
    validate [] strictPolicy "SELECT id FROM orders -/**/- top rows" =
      .ok "SELECT id FROM orders -- top rows LIMIT 101" := eq_ok_of_toOption (by decide +kernel)

/-- An empty block between two hyphens goes, and they open a line comment. -/
theorem validate_uncommented_hyphens :
    validate [] strictPolicy "SELECT id FROM orders -/**/- top rows" =
        .ok "SELECT id FROM orders -- top rows LIMIT 101" ∧
      HasLineComment "SELECT id FROM orders -- top rows LIMIT 101".toList := by
  refine ⟨validate_glued_hyphens, (validate_uncommented validate_glued_hyphens).2.1.2 ?_⟩
  exact ⟨["SELECT id FROM orders -".toList], ["- top rows".toList], by decide +kernel,
    "SELECT id FROM orders ".toList, " top rows".toList, by decide +kernel, by decide +kernel⟩

/-- The row limit is lost in a line comment, and a block comment comes together in the same way. -/
theorem limit_in_comment :
    (∃ out, validate [] strictPolicy "SELECT id FROM orders -/**/- top rows" = .ok out ∧
      stripComments out.toList = "SELECT id FROM orders ".toList ∧
      stripComments out.toList ≠ out.toList) ∧
    ∃ out, validate [] strictPolicy "SELECT id FROM orders //**/* top rows */" = .ok out ∧
      stripComments out.toList = "SELECT id FROM orders  LIMIT 101".toList ∧
      stripComments out.toList ≠ out.toList := by
  constructor
  · exact ⟨_, validate_glued_hyphens, by decide +kernel, by decide +kernel⟩
  · have hblock : validate [] strictPolicy "SELECT id FROM orders //**/* top rows */" =
        .ok "SELECT id FROM orders /* top rows */ LIMIT 101" := eq_ok_of_toOption (by decide +kernel)
    exact ⟨_, hblock, by decide +kernel, by decide +kernel⟩

end Querent.Guard
