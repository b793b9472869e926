import Querent.Prompt.Basic
import Querent.Proofs.Text.Blank
import Querent.Proofs.Text.Replaced

/-! What a model is asked, told apart by how it opens. The opening words of a template hold no place
that could be filled and no white space that trimming could take, so that they stand in every question
made of it. -/
namespace Querent

namespace Prompt

open Text

variable {t t' : Template} {values : List (String × String)}

/-- Far enough to tell one template from another. -/
def leadLength : Nat := 35

/-- How a template opens. -/
def lead (t : Template) : List Char := t.system.toList.take leadLength

/-- An opening of full length that neither filling nor trimming changes. -/
def Steady (l : List Char) : Prop :=
  l.length = leadLength ∧ '\x7b' ∉ l ∧ trimStart l = l ∧ l.getLast?.any isBlank = false

instance (l : List Char) : Decidable (Steady l) := inferInstanceAs (Decidable (_ ∧ _ ∧ _ ∧ _))

theorem prefix_fill {l : List Char} {text name value : String} (hl : '\x7b' ∉ l)
    (h : l <+: text.toList) : l <+: (fill text [(name, value)]).toList := by
  obtain ⟨rest, hrest⟩ := h
  obtain ⟨inner, hplace⟩ : ∃ inner, (place name).toList = '\x7b' :: inner := by
    simp [place]
  simp only [fill, List.foldl, String.toList_ofList, hplace, ← hrest, replaceAll_append hl]
  exact List.prefix_append _ _

theorem prefix_trim {l s : List Char} (hl : Steady l) (h : l <+: s) : l <+: trim s := by
  obtain ⟨hlength, -, hstart, hlast⟩ := hl
  have hend : ∀ c ∈ l.getLast?, isBlank c = false := by
    intro c hc
    rwa [Option.mem_def.1 hc] at hlast
  obtain ⟨rest, rfl⟩ := h
  have hopen : trimStart l ≠ [] := by
    rw [hstart]
    rintro rfl
    cases hlength
  rw [trim, trimStart_append_of_ne_nil hopen, hstart, trimEnd_append hend]
  exact List.prefix_append _ _

/-- What the model is told of its part. -/
def told (t : Template) : Llm.Message := .system (trimmed (fill t.system [("rules", rules)]))

theorem head?_ask : (ask t values).messages.head? = some (told t) := rfl

theorem lead_isPrefix (h : Steady (lead t)) : lead t <+: (told t).content.toList := by
  show lead t <+: (trimmed (fill t.system [("rules", rules)])).toList
  rw [trimmed, String.toList_ofList]
  exact prefix_trim h (prefix_fill h.2.1 (List.take_prefix _ _))

/-- Whether the model is asked by a template: with its words on the model's part and its bound. -/
def askedBy (t : Template) (a : Llm.Ask) : Bool :=
  a.messages.head? == some (told t) && a.maxTokens == t.maxTokens

theorem askedBy_ask : askedBy t (ask t values) = true := by
  rw [askedBy, head?_ask, beq_self_eq_true, Bool.true_and]
  exact beq_self_eq_true t.maxTokens

theorem not_askedBy_of_lead (ht : Steady (lead t)) (ht' : Steady (lead t'))
    (hne : lead t ≠ lead t') : askedBy t (ask t' values) = false := by
  have hlength : (lead t).length = (lead t').length := ht.1.trans ht'.1.symm
  have hdiffer : some (told t') ≠ some (told t) := by
    intro hsame
    have hopens' := lead_isPrefix ht'
    rw [Option.some.inj hsame] at hopens'
    have hopens := List.prefix_of_prefix_length_le (lead_isPrefix ht) hopens' hlength.le
    exact hne (hopens.eq_of_length hlength)
  rw [askedBy, head?_ask, beq_eq_false_iff_ne.2 hdiffer, Bool.false_and]

theorem not_askedBy_of_maxTokens (h : t'.maxTokens ≠ t.maxTokens) :
    askedBy t (ask t' values) = false := by
  have hdiffer : ((ask t' values).maxTokens == t.maxTokens) = false := beq_eq_false_iff_ne.2 h
  rw [askedBy, hdiffer, Bool.and_false]

/-- A repair is no question, though it may be as long. -/
theorem not_askedBy_generate : askedBy generate (ask repair values) = false := by
  have hgenerate : Steady (lead generate) := by decide +kernel
  have hrepair : Steady (lead repair) := by decide +kernel
  exact not_askedBy_of_lead hgenerate hrepair (by decide +kernel)

end Prompt

end Querent
