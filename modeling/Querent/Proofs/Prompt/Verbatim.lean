import Querent.Proofs.Prompt.Filled

/-! What the model reads of a question, of a statement to be repaired and of its fault. Each stands at
its place, with the places of later values in it filled in turn. A question is put as it was asked
exactly if nothing that is told of it holds a later place. -/
namespace Querent.Prompt

open Text

variable {names : List String} {values : List (String × String)} {template : String}

/-! ### The ends of a template -/

/-- A template that opens and ends with characters of its own, neither of them a blank. -/
def framed (ps : List Piece) : Bool :=
  match ps.head?, ps.getLast? with
  | some (.own c), some (.own d) => !isBlank c && !isBlank d
  | _, _ => false

/-- Trimming takes nothing from such a template, whatever it is filled with. -/
theorem trimmed_substitute (hvalues : values.map (·.1) = names)
    (h : framed (piecesFrom names 0 template.toList) = true) :
    trimmed (substitute values template) = substitute values template := by
  unfold substitute
  rw [hvalues]
  generalize piecesFrom names 0 template.toList = ps at h ⊢
  unfold framed at h
  split at h
  · rename_i c d hhead hlast
    obtain ⟨hc, hd⟩ : isBlank c = false ∧ isBlank d = false := by simpa using h
    obtain ⟨rest, rfl⟩ := List.head?_eq_some_iff.1 hhead
    obtain ⟨front, hfront⟩ := List.getLast?_eq_some_iff.1 hlast
    unfold trimmed
    rw [String.toList_ofList, trim_eq_self]
    · simpa using hc
    · rw [hfront]
      simpa [render] using hd
  · cases h

/-! ### Questions and repairs -/

def askedNames : List String := ["prompt", "metadata", "foreignKeys"]

def repairedNames : List String := ["prompt", "previousSql", "dbError", "metadata", "foreignKeys"]

/-- What a question is told by. -/
def askedValues (question : String) (s : Snapshot) : List (String × String) :=
  [("prompt", question), ("metadata", tablesText s.tables), ("foreignKeys", keysText s.foreignKeys)]

/-- What the repair of a statement is told by. -/
def repairedValues (question previous fault : String) (s : Snapshot) : List (String × String) :=
  [("prompt", question), ("previousSql", previous), ("dbError", fault),
    ("metadata", tablesText s.tables), ("foreignKeys", keysText s.foreignKeys)]

theorem names_askedValues (question : String) (s : Snapshot) :
    (askedValues question s).map (·.1) = askedNames := rfl

theorem names_repairedValues (question previous fault : String) (s : Snapshot) :
    (repairedValues question previous fault s).map (·.1) = repairedNames := rfl

/-- The model is told its part and then the user's words. -/
theorem messages_ask {t : Template} (hvalues : values.map (·.1) = names)
    (hnames : ∀ n ∈ names, isPlainName n = true)
    (hapart : apart names (piecesFrom names 0 t.user.toList) = true)
    (hframed : framed (piecesFrom names 0 t.user.toList) = true) :
    (ask t values).messages = [told t, .user (substitute (settle values) t.user)] := by
  have hsettled : (settle values).map (·.1) = names := (map_fst_settle values).trans hvalues
  have hmessages : (ask t values).messages = [told t, .user (trimmed (fill t.user values))] := rfl
  rw [hmessages, fill_eq_substitute hvalues hnames hapart, trimmed_substitute hsettled hframed]

theorem messages_askStatement (question : String) (s : Snapshot) :
    (askStatement question s.tables s.foreignKeys).messages =
      [told generate, .user (substitute (settle (askedValues question s)) generate.user)] :=
  messages_ask (names_askedValues question s) (by decide) (by decide +kernel)
    (by decide +kernel)

theorem messages_askRepair (question previous fault : String) (s : Snapshot) :
    (askRepair question previous fault s.tables s.foreignKeys).messages =
      [told repair,
        .user (substitute (settle (repairedValues question previous fault s)) repair.user)] :=
  messages_ask (names_repairedValues question previous fault s) (by decide)
    (by decide +kernel) (by decide +kernel)

/-- An array opens with a bracket. -/
theorem mem_pretty_array (items : List Json) : '[' ∈ (Json.array items).pretty.toList := by
  cases items with
  | nil => decide
  | cons v rest => simp [Json.pretty, Json.prettyAt]

/-- A question is put as it was asked exactly if no place of a later value is in it, and no place of
the foreign keys in what is told of the tables. -/
theorem asked_iff (question : String) (s : Snapshot) :
    substitute (settle (askedValues question s)) generate.user =
        substitute (askedValues question s) generate.user ↔
      Undisturbed (askedValues question s) := by
  refine ⟨fun h => ?_, fun h => by rw [settle_eq_self h]⟩
  refine undisturbed_of_substitute_eq (c := '[') (names_askedValues question s) (by decide) (by decide)
    ?_ (by decide +kernel) h
  intro e he
  obtain rfl | rfl : e = ("metadata", tablesText s.tables) ∨
      e = ("foreignKeys", keysText s.foreignKeys) := by simpa [askedValues] using he
  · exact mem_pretty_array _
  · exact mem_pretty_array _

/-- What the model reads is the template with each value at its place, once the places of later
values in it have been filled. A question is so put as it was asked, tables and foreign keys included,
exactly if none of its values holds the place of a later one; a repair is where none does. -/
theorem asked_settled (question previous fault : String) (s : Snapshot) :
    (askStatement question s.tables s.foreignKeys).messages =
      [told generate, .user (substitute (settle (askedValues question s)) generate.user)] ∧
    (askRepair question previous fault s.tables s.foreignKeys).messages =
      [told repair,
        .user (substitute (settle (repairedValues question previous fault s)) repair.user)] ∧
    (substitute (settle (askedValues question s)) generate.user =
        substitute (askedValues question s) generate.user ↔
      Undisturbed (askedValues question s)) ∧
    (Undisturbed (repairedValues question previous fault s) →
      settle (repairedValues question previous fault s) = repairedValues question previous fault s) :=
  ⟨messages_askStatement question s, messages_askRepair question previous fault s,
    asked_iff question s, settle_eq_self⟩

/-- Braces, and the place of a value that was filled before, stay as they were written. -/
theorem asked_settled_braces :
    let repaired := repairedValues "How many \x7b\x7b\x7b \x7d\x7d?"
      "SELECT '\x7b\x7bprompt\x7d\x7d'" "near \x7b\x7bpreviousSql\x7d\x7d" (.empty 1)
    Undisturbed repaired ∧ settle repaired = repaired := by
  intro repaired
  have hquiet : Undisturbed repaired := by
    unfold Undisturbed
    decide
  exact ⟨hquiet, (asked_settled _ _ _ (.empty 1)).2.2.2 hquiet⟩

/-- A question that holds the place of a later value is not put as it was asked: the value stands in
it. -/
theorem question_rewritten :
    ¬ ∀ (question : String) (s : Snapshot), (askStatement question s.tables s.foreignKeys).messages =
      [told generate, .user (substitute (askedValues question s) generate.user)] := by
  intro h
  have hquestion := h "Show \x7b\x7bforeignKeys\x7d\x7d" (.empty 1)
  rw [messages_askStatement] at hquestion
  have hsame := congrArg (fun messages => (messages.map Llm.Message.content).getLast?) hquestion
  have hquiet := (asked_iff _ _).1 (Option.some.inj hsame)
  unfold Undisturbed at hquiet
  exact absurd hquiet (by decide)

end Querent.Prompt
