import Querent.Llm.Reply
import Querent.Proofs.Text.Blank

/-! Answers that wrap a text: alone or as a block of Markdown, with white space around. Whatever the
text holds, the wrapping is taken off again. -/
namespace Querent.Llm

open Text

/-- A tag of a block: letters A to Z, small or capital, and digits. -/
def IsTag (tag : List Char) : Prop := ∀ c ∈ tag, c.isAlphanum = true

/-- A block of Markdown around a text. -/
def block (tag text : List Char) : List Char := fence ++ tag ++ '\n' :: (text ++ '\n' :: fence)

/-- A text that is one block of Markdown. -/
def IsBlock (cs : List Char) : Prop := ∃ tag text, IsTag tag ∧ cs = block tag text

variable {cs tag text : List Char}

theorem dropWhile_tag (h : IsTag tag) : (tag ++ '\n' :: cs).dropWhile Char.isAlphanum = '\n' :: cs := by
  rw [List.dropWhile_append_of_pos h]
  rfl

theorem beforeFence_append : beforeFence (text ++ '\n' :: fence) = some text := by
  have hsuffix : "\n```".toList.isSuffixOf (text ++ '\n' :: fence) = true :=
    List.isSuffixOf_iff_suffix.2 ⟨text, rfl⟩
  rw [beforeFence, if_pos hsuffix]
  simp [fence]

theorem append_of_beforeFence (h : beforeFence cs = some text) : cs = text ++ '\n' :: fence := by
  unfold beforeFence at h
  split at h
  · rename_i hsuffix
    obtain ⟨front, hfront⟩ := List.isSuffixOf_iff_suffix.1 hsuffix
    have hfront : front ++ '\n' :: fence = cs := hfront
    subst hfront
    have hfront : text = front := by simpa [fence] using h.symm
    rw [hfront]
  · cases h

/-- The inside of a block is the text it is around, whatever that holds. -/
theorem insideFence_block (h : IsTag tag) : insideFence (block tag text) = some text := by
  have hopen : fence.isPrefixOf (block tag text) = true :=
    List.isPrefixOf_iff_prefix.2 ⟨tag ++ '\n' :: (text ++ '\n' :: fence), by simp [block]⟩
  have hdrop : (block tag text).drop 3 = tag ++ '\n' :: (text ++ '\n' :: fence) := by
    simp [block, fence]
  rw [insideFence, if_pos hopen, hdrop, dropWhile_tag h]
  exact beforeFence_append

/-- Nothing but a block has an inside. -/
theorem isBlock_of_insideFence (h : insideFence cs = some text) : IsBlock cs := by
  unfold insideFence at h
  split at h
  · rename_i hopen
    obtain ⟨behind, hbehind⟩ := List.isPrefixOf_iff_prefix.1 hopen
    subst hbehind
    rw [show (fence ++ behind).drop 3 = behind from rfl] at h
    split at h
    · rename_i inner hinner
      refine ⟨behind.takeWhile Char.isAlphanum, text, fun c hc => (List.mem_takeWhile_imp hc), ?_⟩
      rw [block, ← append_of_beforeFence h, List.append_assoc, ← hinner,
        List.takeWhile_append_dropWhile]
    · cases h
  · cases h

theorem insideFence_eq_none (h : ¬IsBlock cs) : insideFence cs = none := by
  cases hinside : insideFence cs with
  | none => rfl
  | some text => exact absurd (isBlock_of_insideFence hinside) h

/-- A block has no white space at its ends. -/
theorem trim_block : trim (block tag text) = block tag text := by
  apply trim_eq_self
  · rintro c ⟨⟩
    decide
  · have hlast : (block tag text).getLast? = some '`' := by
      simp [block, fence, List.getLast?_append, List.getLast?_cons]
    rw [hlast]
    rintro c ⟨⟩
    decide

/-- What may stand around a text: white space, and within it a block with a tag or nothing. -/
structure Wrapping where
  front : List Char
  tag : Option (List Char)
  back : List Char
  front_blank : ∀ c ∈ front, isBlank c = true
  tag_isTag : ∀ t ∈ tag, IsTag t
  back_blank : ∀ c ∈ back, isBlank c = true

namespace Wrapping

/-- The text in its block, if it has one. -/
def core (w : Wrapping) (text : List Char) : List Char :=
  match w.tag with
  | none => text
  | some tag => block tag text

/-- The answer that holds the text. -/
def around (w : Wrapping) (text : String) : String :=
  .ofList (w.front ++ (w.core text.toList ++ w.back))

/-- The wrapping is taken off, and a text that is no block itself keeps all it holds. -/
theorem stripFence_around (w : Wrapping) {text : String} (hblock : ¬IsBlock (trim text.toList)) :
    stripFence (w.around text) = trimmed text := by
  rw [stripFence, around, String.toList_ofList, trim_between w.front_blank w.back_blank, core]
  cases htag : w.tag with
  | none =>
    simp only [insideFence_eq_none hblock, Option.getD_none, trim_trim]
    rfl
  | some tag =>
    simp only [trim_block, insideFence_block (w.tag_isTag tag htag), Option.getD_some]
    rfl

end Wrapping

end Querent.Llm
