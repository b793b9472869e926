import Querent.Proofs.Guard.Queries
import Querent.Proofs.Guard.Schemas
import Querent.Proofs.Sql.Unspaced

/-! White space between a FROM or a JOIN and a quoted name. SQL has no need of it, but the guard looks
for tables only behind white space: without it the tables that the word names go unchecked. -/
namespace Querent.Guard

open Text Sql

variable {keys : List ForeignKey} {policy : Policy} {sql sql' : String} {s g : List Char} {q : Quoted}
  {refs : List TableRef}

/-! ### The checks on words -/

theorem words_quoted (hg : ∀ c ∈ g, isBlank c = true) :
    words (s ++ (g ++ q.tight)) = words s ++ words q.tight := by
  have hgap : ∀ c ∈ g, isWordChar c = false := fun c hc => isWordChar_of_isBlank (hg c hc)
  rw [(q.apart hg).words_append, words_append_left hgap]

theorem leadingWord_quoted (hs : trimStart s ≠ []) (hg : ∀ c ∈ g, isBlank c = true) :
    leadingWord (s ++ (g ++ q.tight)) = leadingWord s := by
  have hhead : ∀ c ∈ (g ++ q.tight).head?, opensName c = false := by
    intro c hc
    rcases q.head?_cases hg c hc with hc | hc
    · exact opensName_of_isBlank hc
    · exact opensName_of_isNameQuote hc
  have hspan := span_append (s := trimStart s) fun _ => hhead
  rw [leadingWord, trimStart_append_of_ne_nil hs]
  exact congrArg (List.map Char.toUpper) hspan.1

theorem isSingle_quoted (hs : trimStart s ≠ []) (hg : ∀ c ∈ g, isBlank c = true) :
    isSingle (s ++ (g ++ q.tight)) = isSingle (s ++ q.tight) := by
  have hmark : atEnd q.mark = false := by
    rw [atEnd, isBlank_of_isNameQuote q.isMark, Bool.false_or, beq_eq_false_iff_ne]
    intro h
    exact absurd (h ▸ q.isMark) (by decide)
  have hgap : ';' ∉ g := fun h => absurd (hg _ h) (by decide)
  have hbody (g : List Char) : body (s ++ (g ++ q.tight)) =
      trimStart s ++ g ++ q.mark :: q.rest.rdropWhile atEnd := by
    rw [body_eq, trimStart_append_of_ne_nil hs, ← List.append_assoc, Quoted.tight,
      rdropWhile_append_cons hmark]
  have hspaced := hbody g
  have htight := hbody []
  rw [List.nil_append] at htight
  unfold isSingle
  rw [hspaced, htight, Bool.eq_iff_iff]
  simp [hgap]

/-- The white space makes no difference to the checks on words. -/
theorem checkWords_quoted (hs : trimStart s ≠ []) :
    checkWords (s ++ q.tight) = .ok () ↔ checkWords (s ++ q.spaced) = .ok () := by
  have hwords : words (s ++ q.tight) = words (s ++ q.spaced) :=
    (words_quoted (g := []) (by simp)).trans (words_quoted q.blank).symm
  have hleading : leadingWord (s ++ q.tight) = leadingWord (s ++ q.spaced) :=
    (leadingWord_quoted (g := []) hs (by simp)).trans (leadingWord_quoted hs q.blank).symm
  have hsingle : isSingle (s ++ q.spaced) = isSingle (s ++ q.tight) := isSingle_quoted hs q.blank
  simp only [checkWords_eq_ok, opensAsQuery, hasWord_eq_any, hwords, hleading, hsingle]

/-! ### The verdict -/

/-- What is asked of a statement that is taken to have some tables. -/
structure PassesWith (keys : List ForeignKey) (policy : Policy) (refs : List TableRef) (sql : String) :
    Prop where
  words : checkWords (readText sql) = .ok ()
  schemas : ∀ r ∈ refs, ∀ s ∈ r.schema, SchemaAllowed policy.allowedSchemas s
  joins : policy.forbidFreeJoins = true → checkJoins keys refs (readText sql) = .ok ()

theorem accepted_iff_passesWith : (∃ out, validate keys policy sql = .ok out) ↔
    PassesWith keys policy (tables policy.dialect (readText sql)) sql := by
  rw [accepted_iff_readText, checkTables_eq_ok, checkSchemas_eq_ok]
  exact ⟨fun ⟨hwords, hschemas, hjoins⟩ => ⟨hwords, hschemas, hjoins⟩,
    fun ⟨hwords, hschemas, hjoins⟩ => ⟨hwords, hschemas, hjoins⟩⟩

/-- The check on joins looks at their equalities alone. -/
theorem checkJoins_congr_equalities {t : List Char}
    (h : (joins s).map Join.equalities = (joins t).map Join.equalities) :
    checkJoins keys refs s = .ok () ↔ checkJoins keys refs t = .ok () := by
  have hall (s : List Char) : checkJoins keys refs s = .ok () ↔
      ∀ es ∈ (joins s).map Join.equalities, es ≠ [] ∧ ∀ e ∈ es, Declared keys refs e.left e.right := by
    rw [checkJoins_eq_ok, List.forall_mem_map, List.forall_mem_map]
    exact forall₂_congr fun j _ =>
      ⟨fun hpass => ⟨hpass.ne_nil, hpass.declared⟩, fun ⟨hne, hdeclared⟩ => ⟨hne, hdeclared⟩⟩
  rw [hall, hall, h]

/-- Where no FROM and no JOIN that stands before white space is in quotes, a statement without white space
between one of them and a quoted name is judged like the one with it, but for the tables that this word
names: they are not found, and all others are. -/
theorem validate_unspaced (k : QuotedLead) (hsql : stripComments sql.toList = k.spaced)
    (hsql' : stripComments sql'.toList = k.tight) (hout : Outside none k.before)
    (hquote : quoteAfter none k.before = none)
    (hstep : phaseOf (k.before ++ k.word) = .condition → keepsStep none k.tight = true) :
    ∃ first last,
      tables policy.dialect (readText sql) = first ++ (k.named policy.dialect ++ last) ∧
      tables policy.dialect (readText sql') = first ++ last ∧
      (tables policy.dialect (readText sql') = tables policy.dialect (readText sql) ↔
        k.named policy.dialect = []) ∧
      ((∃ out, validate keys policy sql = .ok out) ↔
        PassesWith keys policy (first ++ (k.named policy.dialect ++ last)) sql) ∧
      ((∃ out, validate keys policy sql' = .ok out) ↔ PassesWith keys policy (first ++ last) sql) := by
  have hread : readText sql = normalize k.spaced := by rw [readText, hsql]
  have hread' : readText sql' = normalize k.tight := by rw [readText, hsql']
  obtain ⟨first, last, hspaced, htight⟩ := QuotedLead.tables_unspaced policy.dialect hout hquote
  rw [← hread] at hspaced
  rw [← hread'] at htight
  have hwords : checkWords (readText sql') = .ok () ↔ checkWords (readText sql) = .ok () := by
    rw [hread, hread', k.normalize_spaced, k.normalize_tight]
    exact checkWords_quoted k.trimStart_lead
  have hjoins {refs : List TableRef} : checkJoins keys refs (readText sql') = .ok () ↔
      checkJoins keys refs (readText sql) = .ok () := by
    rw [hread, hread']
    exact (checkJoins_congr_equalities (QuotedLead.joins_unspaced hquote hstep)).symm
  refine ⟨first, last, hspaced, htight, ?_, ?_, ?_⟩
  · rw [hspaced, htight]
    simp
  · rw [accepted_iff_passesWith, hspaced]
  · rw [accepted_iff_passesWith, htight]
    exact ⟨fun h => ⟨hwords.1 h.words, h.schemas, fun hforbid => hjoins.1 (h.joins hforbid)⟩,
      fun h => ⟨hwords.2 h.words, h.schemas, fun hforbid => hjoins.2 (h.joins hforbid)⟩⟩

/-- A condition in which a subquery reads from a table of another schema. -/
def payrollLead : QuotedLead where
  before := "SELECT * FROM a JOIN \"b\" ON a.i = b.i AND b.j IN (SELECT j ".toList
  word := "From".toList
  gap := ['\n']
  mark := '"'
  after := "secret\".\"payroll\")".toList
  left := rfl
  spelled := rfl
  blank := ⟨List.cons_ne_nil _ _, rfl⟩
  isMark := rfl

/-- The white space alone keeps such a statement from being accepted. -/
theorem validate_unspaced_payroll :
    let sql := "SELECT * FROM a JOIN \"b\" ON a.i = b.i AND b.j IN (SELECT j From\n" ++
      "\"secret\".\"payroll\")"
    let sql' := "SELECT * FROM a JOIN \"b\" ON a.i = b.i AND b.j IN (SELECT j From" ++
      "\"secret\".\"payroll\")"
    let policy : Policy := ⟨.postgres, some ["public"], 101, true⟩
    Outside none payrollLead.before ∧
      payrollLead.named .postgres = [⟨some "secret", "payroll", "payroll"⟩] ∧
      (¬ ∃ out, validate [sharedNumber] policy sql = .ok out) ∧
      ∃ out, validate [sharedNumber] policy sql' = .ok out := by
  intro sql sql' policy
  have hout : Outside none payrollLead.before := .of_places (by decide +kernel)
  have hnamed : payrollLead.named .postgres = [⟨some "secret", "payroll", "payroll"⟩] := by
    decide +kernel
  obtain ⟨first, last, -, htables, -, hspaced, htight⟩ :=
    @validate_unspaced [sharedNumber] policy sql sql' payrollLead (by decide +kernel)
      (by decide +kernel) hout (by decide +kernel) fun _ => by decide +kernel
  have hrefs : tables .postgres (readText sql') = bothTables := by decide +kernel
  have hfound : first ++ last = bothTables := htables.symm.trans hrefs
  refine ⟨hout, hnamed, ?_, ?_⟩
  · rw [hspaced, hnamed]
    intro h
    have hsecret := h.schemas ⟨some "secret", "payroll", "payroll"⟩ (by simp) "secret" rfl
    exact not_schemaAllowed (by decide) hsecret
  · rw [htight, hfound]
    have hschemas : checkSchemas (some ["public"]) bothTables = .ok () :=
      eq_ok_of_toOption (by decide +kernel)
    exact ⟨eq_ok_of_toOption (by decide +kernel), checkSchemas_eq_ok.1 hschemas,
      fun _ => eq_ok_of_toOption (by decide +kernel)⟩

/-- Without the white space a schema that is not allowed goes unseen. -/
theorem unspaced_overlooked :
    let sql := "SELECT * FROM \"secret\".\"payroll\""
    let sql' := "SELECT * FROM\"secret\".\"payroll\""
    let policy : Policy := ⟨.postgres, some ["public"], 101, true⟩
    tables .postgres (readText sql) = [⟨some "secret", "payroll", "payroll"⟩] ∧
      tables .postgres (readText sql') = [] ∧
      validate [] policy sql = .error (.schemaNotAllowed ["secret"]) ∧
      validate [] policy sql' = .ok (sql' ++ " LIMIT 101") := by
  intro sql sql' policy
  exact ⟨by decide +kernel, by decide +kernel, by decide +kernel,
    eq_ok_of_toOption (by decide +kernel)⟩

end Querent.Guard
