import Querent.Proofs.Guard.JoinSound
import Querent.Proofs.Guard.JoinVerdict
import Querent.Proofs.Sql.Selection

/-! The verdict of the guard on selections. It reads words and not names, so that it takes a selection
and limits it exactly where no name in it is spelled like a word that it looks for. -/
namespace Querent.Guard

open Text Sql

variable {keys : List ForeignKey} {policy : Policy} {refs : List TableRef} {sql out : String}
  {ks : List String}

/-- The words that keep a statement on one table from being accepted. -/
def barredWords (forbidFreeJoins : Bool) : List String :=
  if forbidFreeJoins then "JOIN" :: refusedKeywords else refusedKeywords

/-- On a text with single blanks and without comments and semicolons the guard reads the text
itself. -/
theorem validate_spaced {t : List Char} (ht : Spaced t) (hmarks : '-' ∉ t ∧ '/' ∉ t ∧ ';' ∉ t)
    (hsql : sql.toList = t) : validate keys policy sql = .ok out ↔
      opensAsQuery t = true ∧ (∀ k ∈ refusedKeywords, hasWord k t = false) ∧
        checkSchemas policy.allowedSchemas (tables policy.dialect t) = .ok () ∧
        (policy.forbidFreeJoins = true → checkJoins keys (tables policy.dialect t) t = .ok ()) ∧
        out = if hasLimit t then sql else sql ++ " LIMIT " ++ toString policy.forceLimit := by
  obtain ⟨hdash, hslash, hsemi⟩ := hmarks
  have hstrip : stripComments t = t := stripComments_of_not_mem hdash hslash
  have htext : String.ofList t = sql := by rw [← hsql, String.ofList_toList]
  have hout : String.ofList (withLimit policy.forceLimit t) =
      if hasLimit t then sql else sql ++ " LIMIT " ++ toString policy.forceLimit := by
    rw [withLimit, ht.body hsemi]
    split
    · exact htext
    · rw [String.ofList_append, htext, String.ofList_toList, String.append_assoc]
  rw [validate_eq_ok, hsql, hstrip, ht.normalize, checkWords_eq_ok, checkTables_eq_ok, hout,
    eq_comm (a := out)]
  simp only [ht.isSingle hsemi, and_true, and_assoc]

section Selection

variable (q : Selection)

/-- None of some keywords is a word of a selection if none of its names spells one. -/
theorem lacks_text_iff (hks : ks ⊆ "JOIN" :: "LIMIT" :: refusedKeywords) :
    (∀ k ∈ ks, hasWord k q.text = false) ↔ ∀ n ∈ q.names, isOneOf ks n.text = false := by
  have hkeys : ∀ k ∈ "JOIN" :: "LIMIT" :: refusedKeywords,
      k.toList.all (fun c => c.isUpper || c == '_') = true ∧ k ≠ "SELECT" ∧ k ≠ "FROM" := by
    decide
  have hword {k : String} (hk : k ∈ ks) :
      hasWord k q.text = false ↔ ∀ n ∈ q.names, sameLetters k.toList n.text = false := by
    obtain ⟨hkey, hselect, hfrom⟩ := hkeys k (hks hk)
    rw [← Bool.not_eq_true, q.hasWord_text hkey hselect hfrom]
    simp
  simp only [isOneOf_eq_false]
  constructor
  · intro h n hn k hk
    exact (hword hk).1 (h k hk) n hn
  · intro h k hk
    exact (hword hk).2 fun n hn => h n hn k hk

theorem checkJoins_selection :
    checkJoins keys refs q.text = .ok () ↔ hasWord "JOIN" q.text = false := by
  obtain ⟨hnone, hsome⟩ := q.joins_text
  rw [checkJoins_eq_ok]
  constructor
  · intro h
    rw [← Bool.not_eq_true]
    intro hjoin
    obtain ⟨j, hj, hcondition⟩ := hsome hjoin
    exact (h j.condition (List.mem_map_of_mem hj)).ne_nil hcondition
  · intro hjoin
    simp [hnone hjoin]

theorem hasLimit_selection :
    hasLimit q.text = q.names.any fun n => isOneOf ["LIMIT"] n.text := by
  have hlacks : (∀ k ∈ ["LIMIT"], hasWord k q.text = false) ↔
      ∀ n ∈ q.names, isOneOf ["LIMIT"] n.text = false := lacks_text_iff q (by decide)
  rw [List.forall_mem_singleton] at hlacks
  rw [hasLimit, Bool.eq_iff_iff, ← not_iff_not, Bool.not_eq_true, Bool.not_eq_true,
    List.any_eq_false]
  simpa only [Bool.not_eq_true] using hlacks

/-- A selection from an allowed schema is accepted exactly if none of its names is barred, and is
given a limit unless one of them passes for one. -/
theorem validate_selection (hsql : sql.toList = q.text)
    (hschema : SchemaAllowed policy.allowedSchemas (.ofList q.schema.text)) :
    validate keys policy sql = .ok out ↔
      (∀ n ∈ q.names, isOneOf (barredWords policy.forbidFreeJoins) n.text = false) ∧
        out = if q.names.any (fun n => isOneOf ["LIMIT"] n.text) then sql
          else sql ++ " LIMIT " ++ toString policy.forceLimit := by
  have hschemas : checkSchemas policy.allowedSchemas (tables policy.dialect q.text) = .ok () := by
    refine checkSchemas_eq_ok.2 fun r hr s hs => ?_
    rw [q.schema_of_mem_tables hr] at hs
    rwa [← Option.some.inj hs]
  have hbarred : ((∀ k ∈ refusedKeywords, hasWord k q.text = false) ∧
      (policy.forbidFreeJoins = true → hasWord "JOIN" q.text = false)) ↔
        ∀ n ∈ q.names, isOneOf (barredWords policy.forbidFreeJoins) n.text = false := by
    have hsub : barredWords policy.forbidFreeJoins ⊆ "JOIN" :: "LIMIT" :: refusedKeywords := by
      unfold barredWords
      split <;> simp
    rw [← lacks_text_iff q hsub, barredWords]
    cases policy.forbidFreeJoins <;> simp [and_comm]
  rw [validate_spaced q.spaced_text q.no_marks hsql, checkJoins_selection, hasLimit_selection,
    ← hbarred]
  simp only [q.opensAsQuery_text, hschemas, true_and, and_assoc]

end Selection

end Querent.Guard
