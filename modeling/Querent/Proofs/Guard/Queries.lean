import Querent.Proofs.Guard.Conditions
import Querent.Proofs.Guard.JoinVerdict
import Querent.Proofs.Query.Tables
import Querent.Proofs.Sql.Normalized

/-! The verdict on a query: its names may not be refused keywords, the schemas of its tables have to
be allowed, and its joins have to follow foreign keys. -/
namespace Querent

open Text Sql

namespace Sql

theorem opensAsQuery_select (t : List Char) : opensAsQuery ("SELECT ".toList ++ t) = true := by
  have hword : leadingWord ("SELECT ".toList ++ t) = "SELECT".toList := rfl
  rw [opensAsQuery, hword]
  decide

/-- No semicolon is among the characters of queries. -/
theorem isSingle_of_isQueryChar {s : List Char} (h : ∀ c ∈ s, isQueryChar c = true) :
    isSingle s = true := by
  have hbody : body s <:+: s :=
    (List.rdropWhile_prefix _ _).isInfix.trans (List.dropWhile_suffix _).isInfix
  have hsemicolon : ';' ∉ body s := fun hmem =>
    (not_isQuote_of_isQueryChar (h _ (hbody.subset hmem))).2 rfl
  simpa [isSingle] using hsemicolon

namespace Query

variable {keys : List ForeignKey} {refs : List TableRef}

theorem exists_select (q : Query) : ∃ t, q.text = "SELECT ".toList ++ t := by
  cases q with
  | select first others items filter => exact ⟨_, rfl⟩
  | union all left right =>
    obtain ⟨t, ht⟩ := left.exists_select
    exact ⟨_, by rw [text_union, ht, List.append_assoc]⟩

theorem opensAsQuery_text (q : Query) : opensAsQuery q.text = true := by
  obtain ⟨t, ht⟩ := q.exists_select
  rw [ht, opensAsQuery_select]

theorem isSingle_text (q : Query) : isSingle q.text = true := isSingle_of_isQueryChar q.piece.chars

theorem not_isQuote (q : Query) : ∀ c ∈ q.text, isQuote c = false := fun c hc =>
  (not_isQuote_of_isQueryChar (q.piece.chars c hc)).1

/-- The joins of a query follow foreign keys at every level if the check on joins passes. -/
theorem allFollow (q : Query) (h : Guard.checkJoins keys refs q.text = .ok ()) :
    Guard.AllFollow keys refs q.ons := by
  have htext : q.text = [] ++ (q.text ++ []) := (List.append_nil q.text).symm
  exact q.follows h q.not_isQuote .nil .nil htext

end Query

end Sql

namespace Guard

variable {keys : List ForeignKey} {policy : Policy} {refs refs' : List TableRef} {sql : String}
  {s : List Char} {q : Query}

/-! ### Statements -/

/-- Spacing makes no difference to the checks on words. -/
theorem checkWords_normalize : checkWords (normalize s) = .ok () ↔ checkWords s = .ok () := by
  simp only [checkWords_eq_ok, opensAsQuery, leadingWord_normalize, hasWord_normalize,
    isSingle_normalize]

/-- The verdict on a statement is one on the text that its tables and joins are read from. -/
theorem accepted_iff_readText : (∃ out, validate keys policy sql = .ok out) ↔
    checkWords (readText sql) = .ok () ∧ checkTables policy keys (readText sql) = .ok () := by
  rw [readText, checkWords_normalize]
  constructor
  · rintro ⟨out, h⟩
    obtain ⟨hwords, htables, -⟩ := validate_eq_ok.1 h
    exact ⟨hwords, htables⟩
  · rintro ⟨hwords, htables⟩
    exact ⟨_, validate_eq_ok.2 ⟨hwords, htables, rfl⟩⟩

theorem checkJoins_congr_refs (h : ∀ r, r ∈ refs ↔ r ∈ refs') :
    checkJoins keys refs s = .ok () ↔ checkJoins keys refs' s = .ok () := by
  have hpass : ∀ c, ConditionPasses keys refs c ↔ ConditionPasses keys refs' c := fun c =>
    ⟨fun hc => ⟨hc.ne_nil, fun e he => (Declared.congr h).1 (hc.declared e he)⟩,
      fun hc => ⟨hc.ne_nil, fun e he => (Declared.congr h).2 (hc.declared e he)⟩⟩
  simp only [checkJoins_eq_ok, hpass]

/-- A statement that opens as a query and is a single one is accepted if no refused keyword is a
word of it, the schemas of its tables are allowed and its joins pass where they have to. -/
theorem accepted_text_iff (h : readText sql = s) (hopens : opensAsQuery s = true)
    (hsingle : isSingle s = true) (hrefs : ∀ r, r ∈ tables policy.dialect s ↔ r ∈ refs) :
    (∃ out, validate keys policy sql = .ok out) ↔ (∀ k ∈ refusedKeywords, hasWord k s = false) ∧
      (∀ r ∈ refs, ∀ x ∈ r.schema, SchemaAllowed policy.allowedSchemas x) ∧
        (policy.forbidFreeJoins = true → checkJoins keys refs s = .ok ()) := by
  rw [accepted_iff_readText, h, checkWords_eq_ok, checkTables_eq_ok, checkSchemas_eq_ok,
    checkJoins_congr_refs hrefs]
  simp only [hrefs, hopens, hsingle, true_and, and_true]

/-! ### Queries -/

theorem accepted_query_iff (h : readText sql = q.text) :
    (∃ out, validate keys policy sql = .ok out) ↔
      (∀ k ∈ refusedKeywords, hasWord k q.text = false) ∧
      (∀ r ∈ q.tables policy.dialect, ∀ x ∈ r.schema, SchemaAllowed policy.allowedSchemas x) ∧
        (policy.forbidFreeJoins = true →
          checkJoins keys (q.tables policy.dialect) q.text = .ok ()) :=
  accepted_text_iff h q.opensAsQuery_text q.isSingle_text fun _ =>
    (tables_text_perm policy.dialect q).mem_iff

/-- The joins of an accepted query follow foreign keys at every level. -/
theorem allFollow_of_accepted (hforbid : policy.forbidFreeJoins = true) (h : readText sql = q.text)
    (haccepted : ∃ out, validate keys policy sql = .ok out) :
    AllFollow keys (q.tables policy.dialect) q.ons :=
  q.allFollow (((accepted_query_iff h).1 haccepted).2.2 hforbid)

end Guard

end Querent
