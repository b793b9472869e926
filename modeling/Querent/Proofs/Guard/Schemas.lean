import Querent.Proofs.Guard.JoinVerdict
import Querent.Proofs.Sql.Qualified

/-! The schemas of an accepted statement, told from its text: behind which FROM a schema has to be on
the list. -/
namespace Querent.Guard

open Text Sql

variable {keys : List ForeignKey} {policy : Policy} {sql out : String}

/-- The places whose FROM names no table: behind IS DISTINCT and IS NOT DISTINCT, and directly in the
parentheses of a call that takes a FROM. -/
def Exempt (before : List Char) : Prop :=
  EndsIn ["DISTINCT", "IS"] before ∨ EndsIn ["DISTINCT", "NOT", "IS"] before ∨ InCall before

/-- In an accepted statement the schema behind a FROM outside quotes is allowed, unless the FROM stands
behind the word DISTINCT or directly in a call that takes a FROM, or the schema is called ONLY or
LATERAL. -/
theorem validate_schemas (f : QualifiedFrom) (h : validate keys policy sql = .ok out)
    (htext : stripComments sql.toList = f.text) (hquote : quoteAfter none f.before = none)
    (hdistinct : ¬ EndsIn ["DISTINCT"] f.before) (hcall : ¬ InCall f.before)
    (honly : spells "ONLY" f.schema = false) (hlateral : spells "LATERAL" f.schema = false) :
    SchemaAllowed policy.allowedSchemas (.ofList f.schema) := by
  obtain ⟨-, htables, -⟩ := validate_eq_ok.1 h
  obtain ⟨hschemas, -⟩ := checkTables_eq_ok.1 htables
  have hopens : opensClause f.before.reverse = true :=
    (opensClause_iff hquote).2 ⟨hdistinct, hcall⟩
  obtain ⟨r, hr, hschema⟩ := f.exists_mem_tables policy.dialect hopens honly hlateral
  rw [← htext] at hr
  rcases checkSchemas_eq policy.allowedSchemas
    (tables policy.dialect (normalize (stripComments sql.toList))) with ⟨-, hall⟩ | ⟨_, herror, -, -⟩
  · exact hall r hr _ hschema
  · rw [hschemas] at herror
    contradiction

/-- Words FROM that name no table stand before the one that does. -/
theorem validate_schemas_behind_distinct :
    let f : QualifiedFrom :=
      { before := "SELECT TRIM(a FROM b), a IS DISTINCT FROM b ".toList, word := "From".toList
        gap := ['\n'], schema := "Sales".toList, table := "orders".toList, after := []
        left := by decide, spelled := by decide, blank := by decide
        named := by decide, tabled := by decide }
    let sql := "SELECT TRIM(a FROM b), a IS DISTINCT FROM b From\nSales.orders"
    validate [] ⟨.postgres, some ["sales"], 101, true⟩ sql = .ok (sql ++ " LIMIT 101") ∧
      SchemaAllowed (some ["sales"]) (.ofList f.schema) := by
  intro f sql
  have hok : validate [] ⟨.postgres, some ["sales"], 101, true⟩ sql = .ok (sql ++ " LIMIT 101") :=
    eq_ok_of_toOption (by decide +kernel)
  have hquote : quoteAfter none f.before = none := by decide +kernel
  obtain ⟨hdistinct, hcall⟩ := (opensClause_iff hquote).1 (by decide +kernel)
  exact ⟨hok, validate_schemas f hok (by decide +kernel) hquote hdistinct hcall (by decide)
    (by decide)⟩

/-- A statement is accepted in which a FROM that is not exempt names a schema off the list. -/
structure Overlooked (policy : Policy) (sql : String) (f : QualifiedFrom) : Prop where
  text_eq : stripComments sql.toList = f.text
  accepted : ∃ out, validate [] policy sql = .ok out
  outside : quoteAfter none f.before = none
  opening : ¬ Exempt f.before
  foreign : ¬ SchemaAllowed policy.allowedSchemas (.ofList f.schema)

theorem not_exempt {before : List Char} (hparen : '(' ∉ before)
    (hword : ∀ k ∈ ["IS", "NOT"], sameLetters (lastWord (beforeWord before)) k.toList = false) :
    ¬ Exempt before := by
  rintro (h | h | ⟨x, t, rfl, -⟩)
  · rw [endsIn_cons (by decide), endsIn_cons (by decide), hword "IS" (by simp)] at h
    simp at h
  · rw [endsIn_cons (by decide), endsIn_cons (by decide), hword "NOT" (by simp)] at h
    simp at h
  · simp at hparen

theorem not_schemaAllowed {schema s : String} (h : sameText schema s = false) :
    ¬ SchemaAllowed (some [s]) schema := by
  simp [SchemaAllowed, h]

/-- An alias DISTINCT takes the FROM behind it out of the check, and a schema ONLY is taken for a
modifier. -/
theorem overlooked_from :
    Overlooked ⟨.postgres, some ["public"], 101, true⟩ "SELECT id AS distinct FROM secret.payroll"
      { before := "SELECT id AS distinct ".toList, word := "FROM".toList, gap := [' ']
        schema := "secret".toList, table := "payroll".toList, after := []
        left := by decide, spelled := by decide, blank := by decide
        named := by decide, tabled := by decide } ∧
    Overlooked ⟨.mysql, some ["public"], 101, true⟩ "SELECT id FROM only.payroll"
      { before := "SELECT id ".toList, word := "FROM".toList, gap := [' ']
        schema := "only".toList, table := "payroll".toList, after := []
        left := by decide, spelled := by decide, blank := by decide
        named := by decide, tabled := by decide } := by
  constructor
  · have hok : validate [] ⟨.postgres, some ["public"], 101, true⟩
        "SELECT id AS distinct FROM secret.payroll" =
          .ok "SELECT id AS distinct FROM secret.payroll LIMIT 101" :=
      eq_ok_of_toOption (by decide +kernel)
    exact ⟨by decide +kernel, ⟨_, hok⟩, by decide +kernel,
      not_exempt (by decide) (by decide +kernel), not_schemaAllowed (by decide +kernel)⟩
  · have hok : validate [] ⟨.mysql, some ["public"], 101, true⟩ "SELECT id FROM only.payroll" =
        .ok "SELECT id FROM only.payroll LIMIT 101" := eq_ok_of_toOption (by decide +kernel)
    exact ⟨by decide +kernel, ⟨_, hok⟩, by decide +kernel,
      not_exempt (by decide) (by decide +kernel), not_schemaAllowed (by decide +kernel)⟩

end Querent.Guard
