/-! Why a statement is refused. The messages name keywords and schemas alone, so that they can be
shown to anyone. -/
namespace Querent

inductive Violation where
  | notSelect
  | withClause
  | forbiddenKeyword (keyword : String)
  | dangerousKeyword (keyword : String)
  | multipleStatements
  | schemaNotAllowed (schemas : List String)
  | unqualifiedJoin
  | unauthorizedJoin (left right : String)
deriving DecidableEq, Repr

def Violation.message : Violation → String
  | notSelect => "Only SELECT queries are allowed"
  | withClause => "CTE (WITH) is not allowed"
  | forbiddenKeyword k => "Keyword not allowed: " ++ k
  | dangerousKeyword k => "Keyword not allowed: " ++ k
  | multipleStatements => "Multiple statements are not allowed"
  | schemaNotAllowed schemas => "Access to schemas not allowed: " ++ ", ".intercalate schemas
  | unqualifiedJoin => "JOINs must use qualified column names and match declared FKs"
  | unauthorizedJoin _ _ => "JOINs must follow foreign key relationships for safety"

end Querent
