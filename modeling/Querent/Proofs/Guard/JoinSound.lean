import Querent.Proofs.Guard.Declared
import Querent.Proofs.Sql.Comparison
import Querent.Proofs.Sql.Tidy

/-! What the check on joins guarantees of an accepted statement: the comparisons it reads follow
foreign keys, and what it does not read makes no difference to it. -/
namespace Querent

open Text Sql

variable {keys : List ForeignKey} {refs : List TableRef} {policy : Policy} {sql out : String}
  {s head x y after : List Char}

/-- The columns compared are the two ends of a foreign key. -/
def Sql.Comparison.Declared (c : Comparison s) (keys : List ForeignKey) (refs : List TableRef) :
    Prop :=
  Guard.Declared keys refs c.equality.left c.equality.right

namespace Guard

/-- The statement as its tables and joins are read: without comments and with single blanks. -/
def readText (sql : String) : List Char := normalize (stripComments sql.toList)

/-- A condition holds an equality, and every equality read in it follows a foreign key. -/
structure ConditionPasses (keys : List ForeignKey) (refs : List TableRef)
    (condition : Option String) : Prop where
  ne_nil : (condition.map equalities).getD [] ≠ []
  declared : ∀ e ∈ (condition.map equalities).getD [], Declared keys refs e.left e.right

theorem checkJoin_eq_ok {j : Join} :
    checkJoin keys refs j = .ok () ↔ ConditionPasses keys refs j.condition := by
  unfold checkJoin
  cases hes : (j.condition.map equalities).getD [] with
  | nil =>
    constructor
    · intro h
      simp at h
    · intro h
      exact absurd hes h.ne_nil
  | cons e es =>
    have hall : (e :: es).forM (checkEquality keys refs) = .ok () ↔
        ∀ e' ∈ e :: es, Declared keys refs e'.left e'.right := by
      rw [forM_eq_ok]
      exact forall₂_congr fun e' _ => checkEquality_eq_ok
    constructor
    · intro h
      exact ⟨by simp [hes], by rw [hes]; exact hall.1 h⟩
    · intro h
      have hdeclared := h.declared
      rw [hes] at hdeclared
      exact hall.2 hdeclared

/-- The verdict on the joins of a statement is one on their conditions. -/
theorem checkJoins_eq_ok : checkJoins keys refs s = .ok () ↔
    ∀ condition ∈ (joins s).map Join.condition, ConditionPasses keys refs condition := by
  rw [checkJoins, forM_eq_ok, List.forall_mem_map]
  exact forall₂_congr fun j _ => checkJoin_eq_ok

/-- Every comparison in the predicate of a join follows a foreign key. -/
def JoinsSound (keys : List ForeignKey) (refs : List TableRef) (s : List Char) : Prop :=
  ∀ c : Comparison s, c.InPredicate → c.Declared keys refs

theorem declared_of_read {c : Comparison s} (hjoins : checkJoins keys refs s = .ok ())
    (h : c.Read) : c.Declared keys refs := by
  obtain ⟨j, hj, condition, hcond, he⟩ := h.exists_join
  have hpass : ConditionPasses keys refs (some condition) := by
    rw [← hcond]
    exact checkJoins_eq_ok.1 hjoins _ (List.mem_map_of_mem hj)
  exact hpass.declared c.equality he

theorem checkJoins_congr (hphase : phaseOf head ≠ .condition) (hx : Inert head x after)
    (hy : Inert head y after) : checkJoins keys refs (head ++ (x ++ after)) = .ok () ↔
      checkJoins keys refs (head ++ (y ++ after)) = .ok () := by
  rw [checkJoins_eq_ok, checkJoins_eq_ok, conditions_congr hphase hx hy]

theorem checkJoins_of_validate (hforbid : policy.forbidFreeJoins = true)
    (h : validate keys policy sql = .ok out) :
    checkJoins keys (tables policy.dialect (readText sql)) (readText sql) = .ok () :=
  (checkTables_eq_ok.1 (validate_eq_ok.1 h).2.1).2 hforbid

/-! ### Two tables that share a number -/

def sharedNumber : ForeignKey where
  constraint := none
  source := { schema := "public", table := "a", column := "i" }
  target := { schema := "public", table := "b", column := "i" }

def bothTables : List TableRef :=
  [{ schema := some "public", table := "a", calledAs := "a" },
    { schema := some "public", table := "b", calledAs := "b" }]

def letter (c : Char) (h : (inName c && !c.isDigit) = true := by decide +kernel) : Ident :=
  .bare c [] h rfl

/-- The front of a statement that joins both tables on their number. -/
def joinLead : List Char :=
  "SELECT * FROM a ".toList ++ ("JOIN b ON ".toList ++ "a.i = b.i AND ".toList)

/-- The comparison of the numbers is followed by a call of LEFT. -/
def callLead : List Char := joinLead ++ "LEFT(a.x, 1) = 'y' AND ".toList

/-- A statement of both tables that reading leaves as it is needs to be looked at only once. -/
theorem accepted_of_text (htext : sql.toList = s) (hread : stripComments s = s ∧ normalize s = s)
    (hwords : (checkWords s).toOption = some ()) (htables : tables .postgres s = bothTables)
    (hjoins : (checkJoins [sharedNumber] bothTables s).toOption = some ()) :
    readText sql = s ∧ ∃ out, validate [sharedNumber] strictPolicy sql = .ok out := by
  have hsame : readText sql = s := by rw [readText, htext, hread.1, hread.2]
  refine ⟨hsame, _, validate_eq_ok.2 ⟨?_, ?_, rfl⟩⟩
  · rw [htext, hread.1]
    exact eq_ok_of_toOption hwords
  · rw [htext, hread.1, hread.2, checkTables_eq_ok]
    refine ⟨rfl, fun _ => ?_⟩
    have hrefs : tables strictPolicy.dialect s = bothTables := htables
    rw [hrefs]
    exact eq_ok_of_toOption hjoins

theorem accepted_behind_call :
    let sql := "SELECT * FROM a JOIN b ON a.i = b.i AND LEFT(a.x, 1) = 'y' AND a.p = b.p"
    readText sql = callLead ++ "a.p = b.p".toList ∧
      ∃ out, validate [sharedNumber] strictPolicy sql = .ok out :=
  accepted_of_text (by decide +kernel) (by decide +kernel) (by decide +kernel) (by decide +kernel)
    (by decide +kernel)

/-! ### What is guaranteed -/

/-- In an accepted statement every comparison that is read follows a foreign key. All comparisons in
the predicates of its joins do exactly if those not read happen to. Outside the conditions as they
are read the joins stay accepted whatever stands there, short of a JOIN or an ON. -/
theorem validate_joins (hforbid : policy.forbidFreeJoins = true)
    (h : validate keys policy sql = .ok out) :
    (∀ c : Comparison (readText sql), c.Read →
      c.Declared keys (tables policy.dialect (readText sql))) ∧
    (JoinsSound keys (tables policy.dialect (readText sql)) (readText sql) ↔
      ∀ c : Comparison (readText sql), c.InPredicate → ¬ c.Read →
        c.Declared keys (tables policy.dialect (readText sql))) ∧
    ∀ head x y after, readText sql = head ++ (x ++ after) → phaseOf head ≠ .condition →
      Inert head x after → Inert head y after →
        checkJoins keys (tables policy.dialect (readText sql)) (head ++ (y ++ after)) = .ok () := by
  have hjoins := checkJoins_of_validate hforbid h
  refine ⟨fun c hc => declared_of_read hjoins hc, ?_, ?_⟩
  · constructor
    · intro hsound c hc _
      exact hsound c hc
    · intro hrest c hc
      by_cases hread : c.Read
      · exact declared_of_read hjoins hread
      · exact hrest c hc hread
  · intro head x y after hparts hphase hx hy
    refine (checkJoins_congr hphase hx hy).1 ?_
    rw [← hparts]
    exact hjoins

/-- The comparison before the call of LEFT is read, and what follows the call is not. -/
theorem validate_joins_behind_call :
    let sql := "SELECT * FROM a JOIN b ON a.i = b.i AND LEFT(a.x, 1) = 'y' AND a.p = b.p"
    let refs := tables .postgres (readText sql)
    (∃ out, validate [sharedNumber] strictPolicy sql = .ok out) ∧
      (∃ c : Comparison (readText sql), c.InPredicate ∧ c.Read ∧ c.Declared [sharedNumber] refs) ∧
      checkJoins [sharedNumber] refs (callLead ++ ("TRUE".toList ++ [])) = .ok () := by
  intro sql refs
  obtain ⟨hread, out, hok⟩ := accepted_behind_call
  have hjoins := validate_joins rfl hok
  refine ⟨⟨out, hok⟩, ?_, ?_⟩
  · let c := Comparison.ofPair ("SELECT * FROM a ".toList ++ "JOIN b ON ".toList) (letter 'a')
      (letter 'i') (letter 'b') (letter 'i') " AND LEFT(a.x, 1) = 'y' AND a.p = b.p".toList
    have hparts : readText sql = c.head ++ (c.text ++ c.after) := by
      rw [hread]
      decide +kernel
    have hin : c.InPredicate := ⟨by decide +kernel, by decide +kernel⟩
    have hfound : c.Read := ⟨by decide +kernel, by decide +kernel, by decide +kernel, [], c.head,
      rfl, .nil_left, by decide, by decide +kernel⟩
    have hdecl := hjoins.1
    simp only [refs]
    rw [hparts] at hdecl ⊢
    exact ⟨c, hin, hfound, hdecl c hfound⟩
  · refine hjoins.2.2 callLead "a.p = b.p".toList "TRUE".toList [] ?_ (by decide +kernel) ?_ ?_
    · rw [hread, List.append_nil]
    · exact ⟨by decide +kernel, by decide +kernel, by decide +kernel⟩
    · exact ⟨by decide +kernel, by decide +kernel, by decide +kernel⟩

/-- The statement is accepted, and a comparison in one of its predicates follows no foreign key. -/
structure AcceptsUndeclared (sql : String) : Prop where
  accepted : ∃ out, validate [sharedNumber] strictPolicy sql = .ok out
  not_sound : ¬ JoinsSound [sharedNumber] (tables .postgres (readText sql)) (readText sql)

theorem acceptsUndeclared_of_comparison (c : Comparison s)
    (hok : readText sql = s ∧ ∃ out, validate [sharedNumber] strictPolicy sql = .ok out)
    (hin : c.InPredicate) (htables : tables .postgres s = bothTables)
    (hrefused : (checkEquality [sharedNumber] bothTables c.equality).toOption = none) :
    AcceptsUndeclared sql := by
  refine ⟨hok.2, ?_⟩
  rw [hok.1, htables]
  intro hsound
  rw [checkEquality_eq_ok.2 (hsound c hin)] at hrefused
  contradiction

/-- A call of LEFT, marks of names in literals, and a letter with an accent: each hides a
comparison. -/
theorem undeclared_comparisons_accepted :
    AcceptsUndeclared "SELECT * FROM a JOIN b ON a.i = b.i AND LEFT(a.x, 1) = 'y' AND a.p = b.p" ∧
    AcceptsUndeclared
      "SELECT * FROM a JOIN b ON a.i = b.i AND a.x < 'y=\"' AND a.p = b.p AND a.x < '\"('" ∧
    AcceptsUndeclared "SELECT * FROM a JOIN b ON a.i = b.i AND a.é = b.p" := by
  refine ⟨?_, ?_, ?_⟩
  · let c := Comparison.ofPair callLead (letter 'a') (letter 'p') (letter 'b') (letter 'p') []
    exact acceptsUndeclared_of_comparison c accepted_behind_call
      ⟨by decide +kernel, by decide +kernel⟩ (by decide +kernel) (by decide +kernel)
  · let c := Comparison.ofPair (joinLead ++ "a.x < 'y=\"' AND ".toList) (letter 'a') (letter 'p')
      (letter 'b') (letter 'p') " AND a.x < '\"('".toList
    exact acceptsUndeclared_of_comparison c
      (accepted_of_text (by decide +kernel) (by decide +kernel) (by decide +kernel)
        (by decide +kernel) (by decide +kernel))
      ⟨by decide +kernel, by decide +kernel⟩ (by decide +kernel) (by decide +kernel)
  · let c := Comparison.ofPair joinLead (letter 'a') (letter 'é') (letter 'b') (letter 'p') []
    exact acceptsUndeclared_of_comparison c
      (accepted_of_text (by decide +kernel) (by decide +kernel) (by decide +kernel)
        (by decide +kernel) (by decide +kernel))
      ⟨by decide +kernel, by decide +kernel⟩ (by decide +kernel) (by decide +kernel)

end Guard

end Querent
