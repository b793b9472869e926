/-! Splitting texts at a separator, joining them and replacing one text by another in them. -/
namespace Querent.Text

/-- The parts between the separators, empty ones included. -/
def splitAt (sep : Char) : List Char → List (List Char)
  | [] => [[]]
  | c :: cs =>
    if c == sep then [] :: splitAt sep cs
    else match splitAt sep cs with
      | [] => [[c]]
      | part :: rest => (c :: part) :: rest

/-- What follows `lead` in a text that opens with it. -/
def dropLead? : (lead text : List Char) → Option (List Char)
  | [], text => some text
  | _ :: _, [] => none
  | l :: lead, c :: text => if l == c then dropLead? lead text else none

theorem dropLead?_length {lead text rest : List Char} (h : dropLead? lead text = some rest) :
    rest.length + lead.length = text.length := by
  induction lead generalizing text with
  | nil => simp_all [dropLead?]
  | cons l lead ih =>
    cases text with
    | nil => simp [dropLead?] at h
    | cons c text =>
      simp only [dropLead?] at h
      split at h
      · have := ih h
        simp only [List.length_cons]
        omega
      · simp at h

/-- Every occurrence of `old`, from the left and without overlap, becomes `new`. -/
def replaceAll (old new : List Char) (text : List Char) : List Char :=
  match text with
  | [] => []
  | c :: cs =>
    match _h : dropLead? old (c :: cs) with
    | some rest => if old.isEmpty then c :: cs else new ++ replaceAll old new rest
    | none => c :: replaceAll old new cs
termination_by text.length
decreasing_by
  · have := dropLead?_length ‹_›
    have : old.length ≠ 0 := by simp_all
    simp only [List.length_cons] at *
    omega
  · simp

/-- Whether `part` occurs in a text. -/
def occursIn (part : List Char) : List Char → Bool
  | [] => part.isEmpty
  | c :: cs => (dropLead? part (c :: cs)).isSome || occursIn part cs

end Querent.Text
