import Querent.Proofs.Guard.JoinSound
import Querent.Proofs.Guard.Schemas

/-! Which statements are refused for their schemas, and what the refusal names: each schema off the list
once, where it comes first. The foreign keys and the joins have no say in it. -/
namespace Querent.Guard

open Text Sql

variable {keys : List ForeignKey} {policy : Policy} {sql : String} {allowed : List String}
  {refs : List TableRef}

/-! ### The report -/

/-- The schemas of a statement, one for each reference that has one, with the repetitions. -/
def namedSchemas (refs : List TableRef) : List String := refs.filterMap (·.schema)

/-- Whether a schema, named at place `n`, is named before in some letter case. -/
def isRepeated (schemas : List String) (s : String) (n : Nat) : Bool :=
  (schemas.take n).any fun t => sameText t s

/-- The schemas off the list at the places where they come first, in order and as written there. -/
def firstForeign (allowed schemas : List String) : List String :=
  (schemas.zipIdx.filter fun (s, n) => !allowed.any (sameText s) && !isRepeated schemas s n).map (·.1)

theorem isRepeated_zero (schemas : List String) (s : String) : isRepeated schemas s 0 = false := rfl

theorem isRepeated_cons (t : String) (schemas : List String) (s : String) (n : Nat) :
    isRepeated (t :: schemas) s (n + 1) = (sameText t s || isRepeated schemas s n) := by
  simp [isRepeated]

theorem sameText_comm (s t : String) : sameText s t = sameText t s :=
  Bool.eq_iff_iff.2 ⟨sameText_symm, sameText_symm⟩

theorem any_sameText_congr {s t : String} (h : sameText s t = true) (l : List String) :
    l.any (sameText s) = l.any (sameText t) := by
  refine List.any_congr rfl fun x => ?_
  exact sameText_congr h

/-- A run over the schemas that remembers those it has named leaves those that are not allowed, that it
has not named before and that come for the first time. -/
private theorem distinctTexts_filter (allowed seen schemas : List String) :
    distinctTexts seen (schemas.filter fun s => !allowed.any (sameText s)) =
      (schemas.zipIdx.filter fun (s, n) => !allowed.any (sameText s) && !seen.any (sameText s) &&
        !isRepeated schemas s n).map (·.1) := by
  induction schemas generalizing seen with
  | nil => rfl
  | cons s schemas ih =>
    have hshift : (schemas.zipIdx.map fun (t, n) => (t, n + 1)) = schemas.zipIdx 1 :=
      List.zipIdx_succ.symm
    -- the schemas behind the first one, which are repeated if they are the same as it
    have htail (seen' : List String) (hsame : ∀ t, (!allowed.any (sameText t) &&
        !seen'.any (sameText t)) = (!allowed.any (sameText t) && !seen.any (sameText t) &&
          !sameText s t)) :
        distinctTexts seen' (schemas.filter fun s => !allowed.any (sameText s)) =
          ((schemas.zipIdx 1).filter fun (t, n) => !allowed.any (sameText t) &&
            !seen.any (sameText t) && !isRepeated (s :: schemas) t n).map (·.1) := by
      rw [ih, ← hshift, List.filter_map, List.map_map]
      congr 1
      refine List.filter_congr fun (t, n) _ => ?_
      simp only [Function.comp_apply, isRepeated_cons, hsame, Bool.not_or, Bool.and_assoc]
    rw [List.zipIdx_cons]
    by_cases hforeign : allowed.any (sameText s) = true
    · have hhead := htail seen fun t => by
        by_cases hst : sameText s t = true
        · simp [← any_sameText_congr hst, hforeign]
        · simp [hst]
      simpa [hforeign] using hhead
    · rw [Bool.not_eq_true] at hforeign
      by_cases hseen : seen.any (sameText s) = true
      · have hhead := htail seen fun t => by
          by_cases hst : sameText s t = true
          · simp [← any_sameText_congr hst, hseen]
          · simp [hst]
        simpa [hforeign, hseen, distinctTexts] using hhead
      · rw [Bool.not_eq_true] at hseen
        have hhead := htail (s :: seen) fun t => by
          simp only [List.any_cons, sameText_comm t s, Bool.not_or]
          cases sameText s t <;> simp
        simpa [hforeign, hseen, distinctTexts, isRepeated_zero] using hhead

theorem foreignSchemas_eq (allowed : List String) (refs : List TableRef) :
    foreignSchemas allowed refs = firstForeign allowed (namedSchemas refs) := by
  simpa [foreignSchemas, firstForeign, namedSchemas] using
    distinctTexts_filter allowed [] (namedSchemas refs)

theorem checkSchemas_eq_error {schemas : List String} :
    checkSchemas (some allowed) refs = .error (.schemaNotAllowed schemas) ↔
      schemas = firstForeign allowed (namedSchemas refs) ∧ schemas ≠ [] := by
  rw [← foreignSchemas_eq]
  cases hlist : foreignSchemas allowed refs with
  | nil => simp [checkSchemas, hlist]
  | cons s rest =>
    simp only [checkSchemas, hlist, Except.error.injEq, Violation.schemaNotAllowed.injEq]
    constructor
    · rintro rfl
      exact ⟨rfl, by simp⟩
    · rintro ⟨rfl, -⟩
      rfl

/-! ### The verdict -/

/-- A check over a list fails in no way in which it fails on no entry. -/
theorem forM_ne_error {ε α : Type} {f : α → Except ε Unit} {l : List α} {e : ε}
    (h : ∀ x ∈ l, f x ≠ .error e) : l.forM f ≠ .error e := by
  intro herror
  have hfails : l.forM f ≠ .ok () := by simp [herror]
  obtain ⟨before, x, after, e', rfl, -, hx, hfirst⟩ := exists_first_error hfails
  obtain rfl := Except.error.inj (hfirst.symm.trans herror)
  exact h x (by simp) hx

/-- No join is refused for a schema. -/
theorem checkJoins_ne_schemaNotAllowed (keys : List ForeignKey) (refs : List TableRef)
    (text : List Char) (schemas : List String) :
    checkJoins keys refs text ≠ .error (.schemaNotAllowed schemas) := by
  have hequality (e : Equality) : checkEquality keys refs e ≠ .error (.schemaNotAllowed schemas) := by
    unfold checkEquality
    split
    · simp
    · split
      · split <;> simp
      · simp
  refine forM_ne_error fun j _ => ?_
  unfold checkJoin
  split
  · simp
  · exact forM_ne_error fun e _ => hequality e

/-- A statement whose words pass is refused for a schema exactly when the check on schemas fails, and in
the same way. -/
theorem validate_eq_schemaNotAllowed (hwords : checkWords (stripComments sql.toList) = .ok ())
    {schemas : List String} : validate keys policy sql = .error (.schemaNotAllowed schemas) ↔
      checkSchemas policy.allowedSchemas (tables policy.dialect (readText sql)) =
        .error (.schemaNotAllowed schemas) := by
  have hverdict : validate keys policy sql =
      (checkTables policy keys (readText sql) >>= fun _ =>
        pure (.ofList (withLimit policy.forceLimit (stripComments sql.toList)))) := by
    simp only [validate, hwords]
    rfl
  have hjoins := checkJoins_ne_schemaNotAllowed keys (tables policy.dialect (readText sql))
    (readText sql) schemas
  rw [hverdict, checkTables]
  cases checkSchemas policy.allowedSchemas (tables policy.dialect (readText sql)) with
  | error e => simp [bind, Except.bind]
  | ok u =>
    refine iff_of_false ?_ (by simp)
    cases policy.forbidFreeJoins with
    | false => simp [bind, Except.bind, pure, Except.pure]
    | true =>
      cases hcheck : checkJoins keys (tables policy.dialect (readText sql)) (readText sql) with
      | error e => simpa [bind, Except.bind, hcheck] using hjoins
      | ok u => simp [bind, Except.bind, pure, Except.pure]

/-- Among the statements whose words pass, exactly those that refer to a schema off the list are refused
for their schemas. The refusal names each of these once in any letter case, in the order and the spelling
of its first occurrence, and it is the same whatever the foreign keys and the policy on joins are. In an
accepted statement every schema is on the list. -/
theorem validate_schemaReport (hwords : checkWords (stripComments sql.toList) = .ok ())
    (hallowed : policy.allowedSchemas = some allowed) :
    let refs := tables policy.dialect (readText sql)
    let verdict := validate keys policy sql
    ((∃ schemas, verdict = .error (.schemaNotAllowed schemas)) ↔
      ∃ r ∈ refs, ∃ s ∈ r.schema, ¬ SchemaAllowed (some allowed) s) ∧
    (∀ schemas, verdict = .error (.schemaNotAllowed schemas) →
      schemas = firstForeign allowed (namedSchemas refs) ∧ Offending (some allowed) refs schemas) ∧
    (∀ out, verdict = .ok out → ∀ r ∈ refs, ∀ s ∈ r.schema, SchemaAllowed (some allowed) s) ∧
    ∀ keys' forbid schemas,
      validate keys' { policy with forbidFreeJoins := forbid } sql = .error (.schemaNotAllowed schemas) ↔
        verdict = .error (.schemaNotAllowed schemas) := by
  intro refs verdict
  have hverdict (schemas : List String) : verdict = .error (.schemaNotAllowed schemas) ↔
      checkSchemas (some allowed) refs = .error (.schemaNotAllowed schemas) := by
    rw [← hallowed]
    exact validate_eq_schemaNotAllowed hwords
  refine ⟨?_, ?_, ?_, ?_⟩
  · constructor
    · rintro ⟨schemas, herror⟩
      have hfails : ¬ ∀ r ∈ refs, ∀ s ∈ r.schema, SchemaAllowed (some allowed) s := by
        rw [← checkSchemas_eq_ok, (hverdict schemas).1 herror]
        simp
      push Not at hfails
      exact hfails
    · rintro ⟨r, hr, s, hs, hforeign⟩
      rcases checkSchemas_eq (some allowed) refs with ⟨-, hall⟩ | ⟨schemas, herror, -, -⟩
      · exact absurd (hall r hr s hs) hforeign
      · exact ⟨schemas, (hverdict schemas).2 herror⟩
  · intro schemas herror
    obtain ⟨rfl, -⟩ := checkSchemas_eq_error.1 ((hverdict schemas).1 herror)
    refine ⟨rfl, ?_⟩
    rw [← foreignSchemas_eq]
    exact offending_foreignSchemas allowed refs
  · intro out hok
    obtain ⟨hschemas, -⟩ := checkTables_eq_ok.1 (validate_eq_ok.1 hok).2.1
    rw [hallowed] at hschemas
    exact checkSchemas_eq_ok.1 hschemas
  · intro keys' forbid schemas
    rw [hverdict, ← hallowed]
    exact @validate_eq_schemaNotAllowed keys' { policy with forbidFreeJoins := forbid } sql hwords schemas

/-- Schemas in two spellings, one that is allowed, and one that the engine assumes. -/
theorem validate_schemaReport_staff :
    let sql := "SELECT * FROM hr.staff s JOIN HR.roles r ON s.role = r.id, Sales.orders, Fin.pay, days"
    checkWords (stripComments sql.toList) = .ok () ∧
      validate [] ⟨.postgres, some ["sales"], 101, true⟩ sql =
        .error (.schemaNotAllowed ["hr", "Fin", "public"]) := by
  intro sql
  have hwords : checkWords (stripComments sql.toList) = .ok () := eq_ok_of_toOption (by decide +kernel)
  let policy : Policy := ⟨.postgres, some ["sales"], 101, true⟩
  obtain ⟨hrefused, hreport, -⟩ := @validate_schemaReport [] policy sql ["sales"] hwords rfl
  have hforeign : ∃ r ∈ tables .postgres (readText sql), ∃ s ∈ r.schema,
      ¬ SchemaAllowed (some ["sales"]) s :=
    ⟨⟨some "hr", "staff", "s"⟩, by decide +kernel, "hr", rfl, not_schemaAllowed (by decide +kernel)⟩
  obtain ⟨schemas, herror⟩ := hrefused.2 hforeign
  obtain ⟨hschemas, -⟩ := hreport schemas herror
  refine ⟨hwords, herror.trans ?_⟩
  rw [hschemas]
  decide +kernel

end Querent.Guard
