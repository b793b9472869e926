import Querent.Guard.Basic
import Querent.Proofs.Text.Words

/-! What it takes for the guard to accept a statement, check by check. -/
namespace Querent.Guard

open Text Sql

variable {ε α β : Type}

/-- A result in this form is settled by evaluation. -/
theorem eq_ok_of_toOption {x : Except ε α} {a : α} (h : x.toOption = some a) : x = .ok a := by
  cases x with
  | error e => simp [Except.toOption] at h
  | ok b => exact congrArg Except.ok (Option.some.inj h)

/-- A check and what follows it pass when both do. -/
theorem check_bind_eq_ok {check : Except ε Unit} {f : Unit → Except ε β} {b : β} :
    (check >>= f) = .ok b ↔ check = .ok () ∧ f () = .ok b := by
  cases check <;> simp [bind, Except.bind]

/-- A check over a list passes when it passes on every entry. -/
theorem forM_eq_ok {f : α → Except ε Unit} {l : List α} :
    l.forM f = .ok () ↔ ∀ x ∈ l, f x = .ok () := by
  induction l with
  | nil => simp [List.forM, pure, Except.pure]
  | cons x l ih =>
    have hcons : (x :: l).forM f = (f x >>= fun _ => l.forM f) := rfl
    rw [hcons, check_bind_eq_ok, ih, List.forall_mem_cons]

/-- Keywords that no accepted statement holds as a whole word. -/
def refusedKeywords : List String := "WITH" :: (forbiddenKeywords ++ dangerousKeywords)

variable {keys : List ForeignKey} {policy : Policy} {sql : String} {text : List Char}

theorem firstKeyword?_eq_none {ks : List String} :
    firstKeyword? ks text = none ↔ ∀ k ∈ ks, hasWord k text = false := by
  simp [firstKeyword?]

theorem checkWords_eq_ok : checkWords text = .ok () ↔
    opensAsQuery text = true ∧ (∀ k ∈ refusedKeywords, hasWord k text = false) ∧
      isSingle text = true := by
  have hwrites : checkWrites text = .ok () ↔
      hasWord "WITH" text = false ∧ ∀ k ∈ forbiddenKeywords, hasWord k text = false := by
    rw [← firstKeyword?_eq_none]
    unfold checkWrites
    cases hasWord "WITH" text <;> cases firstKeyword? forbiddenKeywords text <;> simp
  have hdangers : checkDangers text = .ok () ↔
      ∀ k ∈ dangerousKeywords, hasWord k text = false := by
    rw [← firstKeyword?_eq_none]
    unfold checkDangers
    cases firstKeyword? dangerousKeywords text <;> simp
  have hopening : checkOpening text = .ok () ↔ opensAsQuery text = true := by
    unfold checkOpening
    cases opensAsQuery text <;> simp
  have hsingle : checkSingle text = .ok () ↔ isSingle text = true := by
    unfold checkSingle
    cases isSingle text <;> simp
  have hall : (∀ k ∈ refusedKeywords, hasWord k text = false) ↔
      hasWord "WITH" text = false ∧ (∀ k ∈ forbiddenKeywords, hasWord k text = false) ∧
        ∀ k ∈ dangerousKeywords, hasWord k text = false := by
    rw [refusedKeywords, List.forall_mem_cons, List.forall_mem_append]
  simp only [checkWords, check_bind_eq_ok, hopening, hwrites, hdangers, hsingle, hall, and_assoc]

/-- The guard accepts a statement when its words and its tables pass, and gives it with a limit. -/
theorem validate_eq_ok {out : String} : validate keys policy sql = .ok out ↔
    checkWords (stripComments sql.toList) = .ok () ∧
      checkTables policy keys (normalize (stripComments sql.toList)) = .ok () ∧
        String.ofList (withLimit policy.forceLimit (stripComments sql.toList)) = out := by
  simp [validate, check_bind_eq_ok, pure, Except.pure]

theorem checkTables_eq_ok : checkTables policy keys text = .ok () ↔
    checkSchemas policy.allowedSchemas (tables policy.dialect text) = .ok () ∧
      (policy.forbidFreeJoins = true →
        checkJoins keys (tables policy.dialect text) text = .ok ()) := by
  cases h : policy.forbidFreeJoins <;> simp [checkTables, check_bind_eq_ok, h, pure, Except.pure]

/-- Every schema is open, and joins have to follow foreign keys. -/
def strictPolicy : Policy where
  dialect := .postgres
  allowedSchemas := none
  forceLimit := 101
  forbidFreeJoins := true

end Querent.Guard
