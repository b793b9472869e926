import Querent.Catalog.Basic
import Querent.Guard.Violation
import Querent.Sql.Statement
import Querent.Sql.FromList
import Querent.Sql.Join

/-! The checks on the words of a statement: its first word, its keywords, its end. -/
namespace Querent.Guard

open Sql

def checkOpening (sql : List Char) : Except Violation Unit :=
  if opensAsQuery sql then .ok () else .error .notSelect

def checkWrites (sql : List Char) : Except Violation Unit :=
  if Text.hasWord "WITH" sql then .error .withClause
  else match firstKeyword? forbiddenKeywords sql with
    | some k => .error (.forbiddenKeyword k)
    | none => .ok ()

def checkDangers (sql : List Char) : Except Violation Unit :=
  match firstKeyword? dangerousKeywords sql with
  | some k => .error (.dangerousKeyword k)
  | none => .ok ()

def checkSingle (sql : List Char) : Except Violation Unit :=
  if isSingle sql then .ok () else .error .multipleStatements

/-- All four, in this order. -/
def checkWords (sql : List Char) : Except Violation Unit := do
  checkOpening sql
  checkWrites sql
  checkDangers sql
  checkSingle sql

end Querent.Guard

/-! The guard: decides from the text of a statement whether it is a single read-only query within
the allowed schemas whose joins follow declared foreign keys, and gives the text to run, which
always carries a row limit. The checks run in a fixed order and the first violation counts. -/
namespace Querent

/-- What statements may do. -/
structure Policy where
  dialect : Dialect
  /-- No list allows every schema. -/
  allowedSchemas : Option (List String)
  /-- The limit of a statement that brings none. -/
  forceLimit : Nat
  forbidFreeJoins : Bool
deriving DecidableEq, Repr

namespace Guard

open Sql

/-- The texts in order, each once in any letter case and as it first came. -/
def distinctTexts (seen : List String) : List String → List String
  | [] => []
  | s :: rest =>
    if seen.any (sameText s) then distinctTexts seen rest
    else s :: distinctTexts (s :: seen) rest

/-- The schemas referred to that are not allowed, each once. -/
def foreignSchemas (allowed : List String) (refs : List TableRef) : List String :=
  distinctTexts [] ((refs.filterMap (·.schema)).filter fun s => !allowed.any (sameText s))

def checkSchemas (allowed : Option (List String)) (refs : List TableRef) :
    Except Violation Unit :=
  match allowed with
  | none => .ok ()
  | some allowed =>
    match foreignSchemas allowed refs with
    | [] => .ok ()
    | schemas => .error (.schemaNotAllowed schemas)

/-- Both sides must be qualified and stand for the two ends of a declared foreign key. -/
def checkEquality (keys : List ForeignKey) (refs : List TableRef) (e : Equality) :
    Except Violation Unit :=
  if e.left.length < 2 || e.right.length < 2 then .error .unqualifiedJoin
  else
    match resolve refs e.left, resolve refs e.right with
    | some a, some b =>
      if isDeclaredJoin keys a b then .ok ()
      else .error (.unauthorizedJoin (dotted e.left) (dotted e.right))
    | _, _ => .error (.unauthorizedJoin (dotted e.left) (dotted e.right))

/-- A join needs a condition with at least one equality, and each must pass. -/
def checkJoin (keys : List ForeignKey) (refs : List TableRef) (j : Join) :
    Except Violation Unit :=
  match (j.condition.map equalities).getD [] with
  | [] => .error (.unauthorizedJoin j.target "(no join condition)")
  | es => es.forM (checkEquality keys refs)

def checkJoins (keys : List ForeignKey) (refs : List TableRef) (normalized : List Char) :
    Except Violation Unit :=
  (joins normalized).forM (checkJoin keys refs)

/-- The checks on tables and joins, on the statement with single blanks. -/
def checkTables (policy : Policy) (keys : List ForeignKey) (normalized : List Char) :
    Except Violation Unit := do
  let refs := tables policy.dialect normalized
  checkSchemas policy.allowedSchemas refs
  if policy.forbidFreeJoins then checkJoins keys refs normalized

/-- The statement with a row limit: as it is where it has one anywhere, and otherwise its body with
the limit behind it. -/
def withLimit (limit : Nat) (sql : List Char) : List Char :=
  if hasLimit sql then sql else body sql ++ (" LIMIT " ++ toString limit).toList

/-- Checks a statement against the foreign keys of a catalogue and gives the text to run. -/
def validate (keys : List ForeignKey) (policy : Policy) (sql : String) :
    Except Violation String := do
  let stripped := stripComments sql.toList
  checkWords stripped
  checkTables policy keys (normalize stripped)
  return .ofList (withLimit policy.forceLimit stripped)

end Guard

end Querent
