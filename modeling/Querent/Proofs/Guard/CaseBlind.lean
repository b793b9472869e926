import Mathlib.Data.List.Forall2
import Querent.Proofs.Guard.Declared
import Querent.Proofs.Sql.Lower
import Querent.Proofs.Sql.Normalized

/-! Letter case and spacing. A verdict is settled by the statement in small letters and with single
blanks: statements that agree there are accepted alike or refused for the same. -/
namespace Querent

open Text Sql

/-- What a violation says, in small letters. -/
def Violation.lowered : Violation → Violation
  | schemaNotAllowed schemas => .schemaNotAllowed (schemas.map Querent.lowered)
  | unauthorizedJoin left right => .unauthorizedJoin (Querent.lowered left) (Querent.lowered right)
  | v => v

def ResolvedColumn.lowered (c : ResolvedColumn) : ResolvedColumn where
  schema := c.schema.map Querent.lowered
  table := Querent.lowered c.table
  column := Querent.lowered c.column

theorem agrees_lowered (c : ResolvedColumn) (declared : ColumnName) :
    c.lowered.agrees declared = c.agrees declared := by
  cases hc : c.schema <;> simp [ResolvedColumn.agrees, ResolvedColumn.lowered, hc]

theorem isDeclaredJoin_lowered (keys : List ForeignKey) (a b : ResolvedColumn) :
    isDeclaredJoin keys a.lowered b.lowered = isDeclaredJoin keys a b := by
  simp only [isDeclaredJoin, agrees_lowered]

namespace Sql

theorem sameTable_lowered (r r' : TableRef) : r.lowered.sameTable r'.lowered = r.sameTable r' := by
  cases hr : r.schema <;> cases hr' : r'.schema <;>
    simp [TableRef.sameTable, TableRef.lowered, hr, hr']

theorem lookup_lowered (refs : List TableRef) (name : String) :
    lookup (refs.map TableRef.lowered) (lowered name) =
      (lookup refs name).map TableRef.lowered := by
  have hcalled : ((fun r : TableRef => sameText r.calledAs (lowered name)) ∘ TableRef.lowered) =
      fun r => sameText r.calledAs name := by
    funext r
    simp [TableRef.lowered]
  rw [lookup_eq, lookup_eq, List.filter_map, hcalled]
  cases refs.filter fun r => sameText r.calledAs name with
  | nil => rfl
  | cons r rest =>
    have hsame : r.lowered.sameTable ∘ TableRef.lowered = r.sameTable := by
      funext r'
      rw [Function.comp_apply, sameTable_lowered]
    have hall : (rest.map TableRef.lowered).all r.lowered.sameTable = rest.all r.sameTable := by
      rw [List.all_map, hsame]
    simp only [List.map_cons, hall]
    split <;> rfl

theorem resolve_lowered (refs : List TableRef) (parts : List String) :
    resolve (refs.map TableRef.lowered) (parts.map lowered) =
      (resolve refs parts).map ResolvedColumn.lowered := by
  match parts with
  | [] | [_] | _ :: _ :: _ :: _ :: _ => rfl
  | [qualifier, column] =>
    simp only [List.map_cons, List.map_nil, resolve, lookup_lowered, Option.map_map]
    rfl
  | [schema, table, column] => rfl

theorem lower_intercalate (sep : List Char) (texts : List (List Char)) :
    lower (sep.intercalate texts) = (lower sep).intercalate (texts.map lower) := by
  match texts with
  | [] => rfl
  | [t] => simp [List.intercalate]
  | t :: u :: texts =>
    have hrest := lower_intercalate sep (u :: texts)
    simp only [List.intercalate, List.map_cons] at hrest ⊢
    simp [List.intersperse_cons_cons, hrest]

theorem dotted_lowered (parts : List String) :
    dotted (parts.map lowered) = lowered (dotted parts) := by
  have htexts : (parts.map lowered).map String.toList = (parts.map String.toList).map lower := by
    simp [lowered, Function.comp_def]
  have hdot : lower ".".toList = ".".toList := by decide
  have htext : (dotted (parts.map lowered)).toList = lower (dotted parts).toList := by
    rw [dotted, dotted, String.toList_intercalate, String.toList_intercalate, htexts,
      lower_intercalate, hdot]
  exact String.toList_injective (htext.trans String.toList_ofList.symm)

end Sql

namespace Guard

theorem sameText_lowered (s : String) : sameText (lowered s) = sameText s :=
  funext (sameText_lowered_left s)

theorem any_sameText_lowered (l : List String) (s : String) :
    (l.map lowered).any (sameText (lowered s)) = l.any (sameText s) := by
  simp [List.any_map, Function.comp_def]

theorem distinctTexts_lowered (seen l : List String) :
    distinctTexts (seen.map lowered) (l.map lowered) = (distinctTexts seen l).map lowered := by
  induction l generalizing seen with
  | nil => rfl
  | cons s l ih =>
    simp only [List.map_cons, distinctTexts, any_sameText_lowered]
    split
    · exact ih seen
    · rw [List.map_cons, ← ih (s :: seen), List.map_cons]

theorem foreignSchemas_lowered (allowed : List String) (refs : List TableRef) :
    foreignSchemas allowed (refs.map TableRef.lowered) =
      (foreignSchemas allowed refs).map lowered := by
  have hschemas : (refs.map TableRef.lowered).filterMap (·.schema) =
      (refs.filterMap (·.schema)).map lowered := by
    rw [List.filterMap_map, List.map_filterMap]
    rfl
  have hforeign : (fun s => !allowed.any (sameText s)) ∘ lowered =
      fun s => !allowed.any (sameText s) := by
    funext s
    simp [sameText_lowered]
  have hdistinct := distinctTexts_lowered []
    ((refs.filterMap (·.schema)).filter fun s => !allowed.any (sameText s))
  unfold foreignSchemas
  rw [hschemas, List.filter_map, hforeign]
  exact hdistinct

theorem checkSchemas_lowered (allowed : Option (List String)) (refs : List TableRef) :
    checkSchemas allowed (refs.map TableRef.lowered) =
      (checkSchemas allowed refs).mapError Violation.lowered := by
  cases allowed with
  | none => rfl
  | some allowed =>
    simp only [checkSchemas, foreignSchemas_lowered]
    cases foreignSchemas allowed refs <;> rfl

variable {keys : List ForeignKey} {refs : List TableRef}

theorem checkEquality_lowered (e : Equality) :
    checkEquality keys (refs.map TableRef.lowered) e.lowered =
      (checkEquality keys refs e).mapError Violation.lowered := by
  simp only [checkEquality, Equality.lowered, List.length_map, resolve_lowered, dotted_lowered]
  split
  · rfl
  · cases resolve refs e.left with
    | none => rfl
    | some a =>
      cases resolve refs e.right with
      | none => rfl
      | some b =>
        simp only [Option.map_some, isDeclaredJoin_lowered]
        split <;> rfl

/-- Checks of like entries that give like violations make a like check of a list. -/
theorem forM_mapError {α β ε ε' : Type} {f : α → Except ε Unit} {f' : β → Except ε' Unit}
    {g : α → β} {h : ε → ε'} (hf : ∀ a, f' (g a) = (f a).mapError h) (l : List α) :
    (l.map g).forM f' = (l.forM f).mapError h := by
  induction l with
  | nil => rfl
  | cons a l ih =>
    change (f' (g a) >>= fun _ => (l.map g).forM f') = (f a >>= fun _ => l.forM f).mapError h
    rw [hf, ih]
    cases f a <;> rfl

theorem checkJoin_lowered (j : Join) : checkJoin keys (refs.map TableRef.lowered) j.lowered =
    (checkJoin keys refs j).mapError Violation.lowered := by
  have hequalities : (j.lowered.condition.map equalities).getD [] =
      ((j.condition.map equalities).getD []).map Equality.lowered := by
    cases hj : j.condition <;> simp [Join.lowered, hj, equalities_lowered]
  unfold checkJoin
  rw [hequalities]
  cases (j.condition.map equalities).getD [] with
  | nil =>
    have hnone : lowered "(no join condition)" = "(no join condition)" := by decide
    simp only [List.map_nil, Except.mapError, Violation.lowered, hnone]
    rfl
  | cons e es => exact forM_mapError checkEquality_lowered (e :: es)

theorem checkTables_lower (policy : Policy) (keys : List ForeignKey) (text : List Char) :
    checkTables policy keys (lower text) =
      (checkTables policy keys text).mapError Violation.lowered := by
  have hjoins : checkJoins keys ((tables policy.dialect text).map TableRef.lowered) (lower text) =
      (checkJoins keys (tables policy.dialect text) text).mapError Violation.lowered := by
    unfold checkJoins
    rw [joins_lower]
    exact forM_mapError checkJoin_lowered _
  unfold checkTables
  dsimp only
  rw [tables_lower, checkSchemas_lowered]
  cases checkSchemas policy.allowedSchemas (tables policy.dialect text) with
  | error v => rfl
  | ok _ =>
    cases policy.forbidFreeJoins with
    | false => rfl
    | true => exact hjoins

/-! ### Words and spacing -/

theorem firstKeyword?_normal (keywords : List String) (text : List Char) :
    firstKeyword? keywords (lower (normalize text)) = firstKeyword? keywords text := by
  simp only [firstKeyword?, hasWord_lower, hasWord_normalize]

theorem checkOpening_normal (text : List Char) :
    checkOpening (lower (normalize text)) = checkOpening text := by
  have hopens : opensAsQuery (lower (normalize text)) = opensAsQuery text := by
    unfold opensAsQuery
    rw [leadingWord_lower, leadingWord_normalize]
  unfold checkOpening
  rw [hopens]

theorem checkWrites_normal (text : List Char) :
    checkWrites (lower (normalize text)) = checkWrites text := by
  unfold checkWrites
  rw [hasWord_lower, hasWord_normalize, firstKeyword?_normal]

theorem checkDangers_normal (text : List Char) :
    checkDangers (lower (normalize text)) = checkDangers text := by
  unfold checkDangers
  rw [firstKeyword?_normal]

theorem checkSingle_normal (text : List Char) :
    checkSingle (lower (normalize text)) = checkSingle text := by
  unfold checkSingle
  rw [isSingle_lower, isSingle_normalize]

/-- The checks on words pass over case and spacing. -/
theorem checkWords_normal (text : List Char) :
    checkWords (lower (normalize text)) = checkWords text := by
  unfold checkWords
  rw [checkOpening_normal, checkWrites_normal, checkDangers_normal, checkSingle_normal]

/-- The text to run, in small letters and with single blanks, for a statement that is written so. -/
def limited (n : Nat) (text : List Char) : List Char :=
  if hasLimit text then text
  else lower (trim (body text ++ squeezeFrom false (" LIMIT " ++ toString n).toList))

theorem limited_normal (n : Nat) (text : List Char) :
    lower (normalize (withLimit n text)) = limited n (lower (normalize text)) := by
  have hlimit : hasLimit (lower (normalize text)) = hasLimit text := by
    simp only [hasLimit, hasWord_lower, hasWord_normalize]
  unfold withLimit limited
  rw [hlimit]
  split
  · rfl
  · rw [normalize_eq_trim, squeezeFrom_append, insideAfter_body, ← body_normalize, body_lower,
      ← trim_lower, ← trim_lower, lower_append, lower_append, lower_lower]

/-- What a verdict says, in small letters and with single blanks. -/
def folded (verdict : Except Violation String) : Except Violation (List Char) :=
  (verdict.mapError Violation.lowered).map fun out => lower (normalize out.toList)

/-- The verdict on a statement that is written in small letters and with single blanks. -/
def foldedVerdict (keys : List ForeignKey) (policy : Policy) (text : List Char) :
    Except Violation (List Char) := do
  checkWords text
  checkTables policy keys text
  return limited policy.forceLimit text

theorem mapError_bind {α β ε ε' : Type} {h : ε → ε'} (x : Except ε α) (f : α → Except ε β) :
    (x >>= f).mapError h = x.mapError h >>= fun a => (f a).mapError h := by
  cases x <;> rfl

/-- A violation of the checks on words names a keyword of theirs, if anything. -/
theorem checkWords_lowered (text : List Char) :
    (checkWords text).mapError Violation.lowered = checkWords text := by
  have hopening : (checkOpening text).mapError Violation.lowered = checkOpening text := by
    unfold checkOpening
    split <;> rfl
  have hwrites : (checkWrites text).mapError Violation.lowered = checkWrites text := by
    unfold checkWrites
    split
    · rfl
    · split <;> rfl
  have hdangers : (checkDangers text).mapError Violation.lowered = checkDangers text := by
    unfold checkDangers
    split <;> rfl
  have hsingle : (checkSingle text).mapError Violation.lowered = checkSingle text := by
    unfold checkSingle
    split <;> rfl
  unfold checkWords
  rw [mapError_bind, mapError_bind, mapError_bind, hopening, hwrites, hdangers, hsingle]

theorem folded_validate (keys : List ForeignKey) (policy : Policy) {sql : String}
    (h : stripComments sql.toList = sql.toList) : folded (validate keys policy sql) =
      foldedVerdict keys policy (lower (normalize sql.toList)) := by
  have hout : lower (normalize (String.ofList (withLimit policy.forceLimit sql.toList)).toList) =
      limited policy.forceLimit (lower (normalize sql.toList)) := by
    rw [String.toList_ofList, limited_normal]
  unfold foldedVerdict folded validate
  dsimp only
  rw [h, mapError_bind, mapError_bind, checkWords_lowered, checkWords_normal, checkTables_lower,
    ← hout]
  cases checkWords sql.toList with
  | error v => rfl
  | ok _ => cases checkTables policy keys (normalize sql.toList) <;> rfl

/-! ### The main result -/

/-- The same violation, in which schemas and names may be written in another letter case. -/
inductive SameViolation : Violation → Violation → Prop
  | same (v : Violation) : SameViolation v v
  | schemas {schemas schemas' : List String}
      (same : List.Forall₂ (fun s s' => sameText s s' = true) schemas schemas') :
      SameViolation (.schemaNotAllowed schemas) (.schemaNotAllowed schemas')
  | join {left left' right right' : String} (sameLeft : sameText left left' = true)
      (sameRight : sameText right right' = true) :
      SameViolation (.unauthorizedJoin left right) (.unauthorizedJoin left' right')

/-- Both accepted, with texts that differ in letter case and spacing alone, or both refused for the
same. -/
inductive SameVerdict : Except Violation String → Except Violation String → Prop
  | accepted {out out' : String}
      (same : sameLetters (normalize out.toList) (normalize out'.toList) = true) :
      SameVerdict (.ok out) (.ok out')
  | refused {v v' : Violation} (same : SameViolation v v') : SameVerdict (.error v) (.error v')

theorem sameViolation_of_lowered {v v' : Violation} (h : v.lowered = v'.lowered) :
    SameViolation v v' := by
  cases v with
  | schemaNotAllowed schemas =>
    cases v' with
    | schemaNotAllowed schemas' =>
      have hschemas : schemas.map lowered = schemas'.map lowered := Violation.schemaNotAllowed.inj h
      refine .schemas ?_
      rw [← List.forall₂_eq_eq_eq, List.forall₂_map_left_iff,
        List.forall₂_map_right_iff] at hschemas
      exact hschemas.imp fun _ _ => sameText_iff.2
    | _ => cases h
  | unauthorizedJoin left right =>
    cases v' with
    | unauthorizedJoin left' right' =>
      obtain ⟨hleft, hright⟩ := Violation.unauthorizedJoin.inj h
      exact .join (sameText_iff.2 hleft) (sameText_iff.2 hright)
    | _ => cases h
  | _ =>
    cases v' <;> cases h
    all_goals exact .same _

theorem sameVerdict_of_folded {x x' : Except Violation String} (h : folded x = folded x') :
    SameVerdict x x' := by
  cases x with
  | error v =>
    cases x' with
    | error v' => exact .refused (sameViolation_of_lowered (Except.error.inj h))
    | ok out' => cases h
  | ok out =>
    cases x' with
    | error v' => cases h
    | ok out' => exact .accepted (sameLetters_iff.2 (Except.ok.inj h))

/-- Two statements without comments that differ in letter case and spacing alone get the same
verdict. -/
theorem sameVerdict_validate (keys : List ForeignKey) (policy : Policy) {a b : String}
    (ha : stripComments a.toList = a.toList) (hb : stripComments b.toList = b.toList)
    (h : sameLetters (normalize a.toList) (normalize b.toList) = true) :
    SameVerdict (validate keys policy a) (validate keys policy b) := by
  refine sameVerdict_of_folded ?_
  rw [folded_validate keys policy ha, folded_validate keys policy hb, sameLetters_iff.1 h]

def placedBy : ForeignKey where
  constraint := none
  source := { schema := "sales", table := "orders", column := "customer_id" }
  target := { schema := "sales", table := "customers", column := "id" }

/-- One statement on one line, and again over two and in other letters. -/
theorem sameVerdict_validate_orders :
    let policy : Policy := ⟨.postgres, some ["sales"], 101, true⟩
    let a := "SELECT o.id FROM sales.orders o JOIN sales.customers c ON o.customer_id = c.id"
    let b := "Select o.id From Sales.Orders O\n\tjoin sales.customers c on O.customer_id = c.ID"
    sameLetters (normalize a.toList) (normalize b.toList) = true ∧
      SameVerdict (validate [placedBy] policy a) (validate [placedBy] policy b) ∧
      (validate [placedBy] policy a).isOk = true ∧
      SameVerdict (validate [] policy a) (validate [] policy b) ∧
      validate [] policy b = .error (.unauthorizedJoin "O.customer_id" "c.ID") := by
  intro policy a b
  have ha : stripComments a.toList = a.toList := by decide +kernel
  have hb : stripComments b.toList = b.toList := by decide +kernel
  have h : sameLetters (normalize a.toList) (normalize b.toList) = true := by decide +kernel
  have haccepted : (validate [placedBy] policy a).isOk = true := by decide +kernel
  have hrefused : validate [] policy b = .error (.unauthorizedJoin "O.customer_id" "c.ID") := by
    decide +kernel
  exact ⟨h, sameVerdict_validate [placedBy] policy ha hb h, haccepted,
    sameVerdict_validate [] policy ha hb h, hrefused⟩

end Guard

end Querent
