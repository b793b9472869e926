import Querent.Proofs.Guard.Verdict

/-! The text that runs once a statement is accepted: which words it can hold, where its semicolons
stand, and that it carries a row limit. The checks read the statement without comments; trimming it
and writing the limit behind it make no new word and hide none. -/
namespace Querent.Guard

open Text Sql

variable {sql : List Char} {n : Nat}

/-- The body is what is left between white space in front and white space and semicolons behind. -/
theorem exists_body_append (sql : List Char) :
    ∃ lead tail, sql = lead ++ (body sql ++ tail) ∧ (∀ c ∈ lead, isBlank c = true) ∧
      ∀ c ∈ tail, c = ';' ∨ isBlank c = true := by
  let ending : Char → Bool := fun c => isBlank c || c == ';'
  refine ⟨sql.takeWhile isBlank, ((trimStart sql).reverse.takeWhile ending).reverse, ?_, ?_, ?_⟩
  · have hback : body sql ++ ((trimStart sql).reverse.takeWhile ending).reverse = trimStart sql := by
      rw [body, ← List.reverse_append, List.takeWhile_append_dropWhile, List.reverse_reverse]
    rw [hback]
    exact List.takeWhile_append_dropWhile.symm
  · intro c hc
    exact List.mem_takeWhile_imp hc
  · intro c hc
    have hc : ending c = true := List.mem_takeWhile_imp (List.mem_reverse.1 hc)
    simpa [ending, or_comm] using hc

theorem words_body (sql : List Char) : words (body sql) = words sql := by
  obtain ⟨lead, tail, hsql, hlead, htail⟩ := exists_body_append sql
  have hblank : ∀ c ∈ lead, isWordChar c = false := fun c hc => isWordChar_of_isBlank (hlead c hc)
  have hend : ∀ c ∈ tail, isWordChar c = false := by
    intro c hc
    rcases htail c hc with rfl | h
    · decide
    · exact isWordChar_of_isBlank h
  conv_rhs => rw [hsql]
  rw [words_append_left hblank, words_append_right hend]

/-- The words of a statement that gets a limit: its own, LIMIT and the number. -/
theorem words_append_limit (sql : List Char) (n : Nat) :
    words (body sql ++ (" LIMIT " ++ toString n).toList) =
      words sql ++ ["LIMIT".toList, (toString n).toList] := by
  have hdigits : ∀ c ∈ (toString n).toList, isWordChar c = true := by
    intro c hc
    exact isWordChar_of_isPlain (isPlain_of_isDigit (isDigit_of_mem_toString hc))
  have htext : (" LIMIT " ++ toString n).toList =
      ' ' :: ("LIMIT".toList ++ ' ' :: (toString n).toList) := by simp
  have hlimit : words "LIMIT".toList = ["LIMIT".toList] := by decide
  rw [htext, words_append_cons (by decide), words_append_cons (by decide), words_body, hlimit,
    words_word (toString_toList_ne_nil n) hdigits]
  rfl

/-- The limit brings no refused keyword. -/
theorem hasWord_withLimit {k : String} (hk : k ∈ refusedKeywords) :
    hasWord k (withLimit n sql) = hasWord k sql := by
  unfold withLimit
  split
  · rfl
  · have hlimit : ∀ k ∈ refusedKeywords, spells k "LIMIT".toList = false := by decide
    have halpha : ∀ k ∈ refusedKeywords, k.toList.all Char.isAlpha = true := by decide
    rw [hasWord_eq_any, words_append_limit, List.any_append, ← hasWord_eq_any]
    simp only [List.any_cons, List.any_nil, hlimit k hk, not_spells_toString (halpha k hk),
      Bool.or_false]

theorem hasWord_limit_withLimit (n : Nat) (sql : List Char) :
    hasWord "LIMIT" (withLimit n sql) = true := by
  unfold withLimit
  split
  · assumption
  · rw [hasWord_eq_any, words_append_limit, List.any_append]
    have hspells : spells "LIMIT" "LIMIT".toList = true := by decide
    simp only [List.any_cons, hspells, Bool.true_or, Bool.or_true]

/-- Behind a single statement there is nothing but semicolons and white space, with a limit and
without one. -/
theorem exists_withLimit_append (h : isSingle sql = true) :
    ∃ text tail, withLimit n sql = text ++ tail ∧ ';' ∉ text ∧
      ∀ c ∈ tail, c = ';' ∨ isBlank c = true := by
  have hbody : ';' ∉ body sql := by simpa [isSingle] using h
  unfold withLimit
  split
  · obtain ⟨lead, tail, hsql, hlead, htail⟩ := exists_body_append sql
    refine ⟨lead ++ body sql, tail, by rw [List.append_assoc, ← hsql], ?_, htail⟩
    intro hmem
    rcases List.mem_append.1 hmem with hmem | hmem
    · exact absurd (hlead _ hmem) (by decide)
    · exact hbody hmem
  · refine ⟨_, [], (List.append_nil _).symm, ?_, by simp⟩
    intro hmem
    rw [String.toList_append, List.mem_append, List.mem_append] at hmem
    rcases hmem with hmem | hmem | hmem
    · exact hbody hmem
    · exact absurd hmem (by decide)
    · exact absurd (isDigit_of_mem_toString hmem) (by decide)

/-- An accepted statement runs as it stands without its comments if it has a LIMIT, and otherwise as
its body with the limit behind it. Either way the text holds no refused keyword as a whole word, no
semicolon before its end, and a LIMIT. -/
theorem executed_text {keys : List ForeignKey} {policy : Policy} {sql out : String}
    (h : validate keys policy sql = .ok out) :
    (∀ k ∈ refusedKeywords, ¬ Occurs k out.toList) ∧
    (∃ text tail, out.toList = text ++ tail ∧ ';' ∉ text ∧
      ∀ c ∈ tail, c = ';' ∨ isBlank c = true) ∧
    Occurs "LIMIT" out.toList ∧
    (Occurs "LIMIT" (stripComments sql.toList) → out.toList = stripComments sql.toList) ∧
    (¬ Occurs "LIMIT" (stripComments sql.toList) →
      out.toList = body (stripComments sql.toList) ++
        (" LIMIT " ++ toString policy.forceLimit).toList) := by
  obtain ⟨hwords, -, rfl⟩ := validate_eq_ok.1 h
  obtain ⟨-, hkeywords, hsingle⟩ := checkWords_eq_ok.1 hwords
  rw [String.toList_ofList]
  refine ⟨?_, exists_withLimit_append hsingle, ?_, ?_, ?_⟩
  · intro k hk hocc
    have hhas : hasWord k (stripComments sql.toList) = true := by
      rw [← hasWord_withLimit hk]
      exact hasWord_iff_occurs.2 hocc
    rw [hkeywords k hk] at hhas
    contradiction
  · exact hasWord_iff_occurs.1 (hasWord_limit_withLimit _ _)
  · intro hlimit
    exact if_pos (hasWord_iff_occurs.2 hlimit)
  · intro hlimit
    exact if_neg fun hhas => hlimit (hasWord_iff_occurs.1 hhas)

/-- A comment glues two fragments, and the statement gets its limit before a trailing semicolon. -/
theorem executed_text_of_commented :
    let out := "SELECT id FROM orders LIMIT 101"
    validate [] ⟨.postgres, none, 101, true⟩ "SEL/* x */ECT id FROM orders ; -- top" = .ok out ∧
      (∀ k ∈ refusedKeywords, ¬ Occurs k out.toList) ∧ Occurs "LIMIT" out.toList := by
  have h : validate [] ⟨.postgres, none, 101, true⟩ "SEL/* x */ECT id FROM orders ; -- top" =
      .ok "SELECT id FROM orders LIMIT 101" := eq_ok_of_toOption (by decide +kernel)
  exact ⟨h, (executed_text h).1, (executed_text h).2.2.1⟩

end Querent.Guard
