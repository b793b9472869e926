import Querent.Pipeline.Candidate
import Querent.Proofs.Json.Read
import Querent.Proofs.Llm.Fence

/-! The statement in an answer. Printed as JSON or as it stands, wrapped or not, it is found. -/
namespace Querent.Candidate

open Text Llm Json

variable {members : List (String × Json)} {text : String}

/-- A text that is empty when trimmed is nothing but white space. -/
theorem isEmpty_trimmed (s : String) : (trimmed s).isEmpty = isBlankText s := by
  rw [Bool.eq_iff_iff, String.isEmpty_iff, isBlankText, isAllBlank, List.all_eq_true,
    ← trim_eq_nil_iff, trimmed]
  simp

theorem present_eq (s : String) : present s = if isBlankText s then none else some (trimmed s) := by
  rw [present, isEmpty_trimmed]

/-- A value as it is printed, in either layout. -/
def Prints (v : Json) (text : String) : Prop := text = v.compact ∨ text = v.pretty

/-- The text of an object stands between braces. -/
theorem exists_braces (h : Prints (.object members) text) :
    ∃ inside, text.toList = '\x7b' :: (inside ++ ['\x7d']) := by
  rcases h with rfl | rfl
  · exact ⟨(compactMembers members).toList, by simp [compact]⟩
  · cases members with
    | nil => exact ⟨[], by simp [pretty, prettyAt]⟩
    | cons m rest =>
      exact ⟨(prettyMembers 1 (m :: rest)).toList ++ (newline 0).toList, by simp [pretty, prettyAt]⟩

theorem trim_prints (h : Prints (.object members) text) : trim text.toList = text.toList := by
  obtain ⟨inside, htext⟩ := exists_braces h
  apply trim_eq_self
  · rw [htext]
    rintro c ⟨⟩
    decide
  · have hlast : text.toList.getLast? = some '\x7d' := by
      rw [htext, List.getLast?_cons, List.getLast?_append]
      simp
    rw [hlast]
    rintro c ⟨⟩
    decide

theorem not_isBlock_prints (h : Prints (.object members) text) : ¬IsBlock text.toList := by
  obtain ⟨inside, htext⟩ := exists_braces h
  rintro ⟨tag, body, -, hblock⟩
  rw [htext] at hblock
  cases hblock

theorem parse_prints {v : Json} (hv : v.Proper) (h : Prints v text) :
    Tree.parse text = some (readTree v) := by
  rcases h with rfl | rfl
  · exact parse_compact hv
  · exact parse_pretty hv

/-- An object that holds a statement, printed and wrapped, gives the statement. -/
theorem ofAnswer_object (w : Wrapping) {q : String} (hkeys : (members.map (·.1)).Nodup)
    (hsql : ("sql", .string q) ∈ members) (hproper : Proper (.object members))
    (hlevels : levels (.object members) ≤ maxDepth) (h : Prints (.object members) text) :
    ofAnswer (w.around text) = present q := by
  obtain ⟨ws, hparse, htexts⟩ := exists_parse hkeys hproper hlevels (parse_prints hproper h)
  have htrimmed : trimmed text = text := by rw [trimmed, trim_prints h, String.ofList_toList]
  have hstrip : stripFence (w.around text) = text := by
    rw [w.stripFence_around (by rw [trim_prints h]; exact not_isBlock_prints h), htrimmed]
  have hfull : text.isEmpty = false := by
    obtain ⟨inside, htext⟩ := exists_braces h
    rw [Bool.eq_false_iff, ne_eq, String.isEmpty_iff]
    rintro rfl
    cases htext
  simp [ofAnswer, hstrip, hfull, hparse, htexts "sql" q hsql, string?]

/-- A text that is neither JSON nor a block, wrapped, is the statement itself. -/
theorem ofAnswer_text (w : Wrapping) (hjson : parse (trimmed text) = none)
    (hblock : ¬IsBlock (trim text.toList)) : ofAnswer (w.around text) = present text := by
  simp only [ofAnswer, w.stripFence_around hblock, hjson]
  rfl

/-- Wrapped in white space, and in a block or none, an answer gives its statement, trimmed and only
where it is not blank: the text under `sql` of a printed object, whatever stands under the other
keys, and any text that is neither JSON nor a block, whatever fences it holds. -/
theorem ofAnswer_around (w : Wrapping) :
    (∀ (members : List (String × Json)) (q text : String), (members.map (·.1)).Nodup →
      ("sql", .string q) ∈ members → Proper (.object members) →
      levels (.object members) ≤ maxDepth → Prints (.object members) text →
        ofAnswer (w.around text) = if isBlankText q then none else some (trimmed q)) ∧
    ∀ s : String, parse (trimmed s) = none → ¬IsBlock (trim s.toList) →
      ofAnswer (w.around s) = if isBlankText s then none else some (trimmed s) := by
  refine ⟨fun members q text hkeys hsql hproper hlevels hprints => ?_, fun s hjson hblock => ?_⟩
  · rw [ofAnswer_object w hkeys hsql hproper hlevels hprints, present_eq]
  · rw [ofAnswer_text w hjson hblock, present_eq]

/-- A block between line breaks. -/
def blockWrapping : Wrapping where
  front := ['\n', ' ']
  tag := some ['j', 's', 'o', 'n', '5']
  back := ['\n']
  front_blank := List.all_eq_true.1 rfl
  tag_isTag := by
    rintro t ⟨⟩
    exact List.all_eq_true.1 rfl
  back_blank := List.all_eq_true.1 rfl

/-- An answer with a score and a remark beside a statement that holds the fence of a block. -/
def scoredMembers : List (String × Json) :=
  [("score", .number (.float 1.7976931348623157e308)),
    ("remark", .array [.null, .object [("sql", .bool true)]]),
    ("sql", .string " SELECT '\n```'\n")]

/-- The statement is found under its key and between the fences, its own fences included. -/
theorem ofAnswer_around_scored :
    ofAnswer (blockWrapping.around (Json.object scoredMembers).pretty) = some "SELECT '\n```'" ∧
      ofAnswer (blockWrapping.around "SELECT '\n```\n[1]\n```' ") = some "SELECT '\n```\n[1]\n```'" := by
  constructor
  · have hfinite : Float.isFinite 1.7976931348623157e308 = true := by decide +kernel
    have hproper : Proper (.object scoredMembers) :=
      ⟨hfinite, ⟨trivial, ⟨trivial, trivial⟩, trivial⟩, trivial, trivial⟩
    have hanswer := (ofAnswer_around blockWrapping).1 scoredMembers " SELECT '\n```'\n" _ (by decide)
      (by simp [scoredMembers]) hproper (by decide) (.inr rfl)
    rw [hanswer]
    decide
  · have htrimmed : trimmed "SELECT '\n```\n[1]\n```' " = "SELECT '\n```\n[1]\n```'" := by decide
    have hjson : parse (trimmed "SELECT '\n```\n[1]\n```' ") = none := by
      have hscan : Token.scan "SELECT '\n```\n[1]\n```'".toList = none :=
        Token.scan_of_read_eq_none rfl rfl
      rw [htrimmed, parse, Tree.parse, hscan]
      rfl
    have hblock : ¬IsBlock (trim "SELECT '\n```\n[1]\n```' ".toList) := by
      have hfirst : (trim "SELECT '\n```\n[1]\n```' ".toList).head? = some 'S' := by decide
      rintro ⟨tag, body, -, hblock⟩
      rw [hblock] at hfirst
      cases hfirst
    have hanswer := (ofAnswer_around blockWrapping).2 _ hjson hblock
    rw [hanswer, htrimmed]
    decide

end Querent.Candidate
