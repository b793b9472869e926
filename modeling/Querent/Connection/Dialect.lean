import Querent.Text.Blank

/-! The two database engines a workspace can live on. -/
namespace Querent

inductive Dialect where
  | postgres
  | mysql
deriving DecidableEq, Repr

namespace Dialect

def name : Dialect → String
  | postgres => "postgresql"
  | mysql => "mysql"

/-- The schema of a table named without one, if the engine assumes any. -/
def defaultSchema : Dialect → Option String
  | postgres => some "public"
  | mysql => none

/-- Reads an engine's name, in any letter case and with blanks around it. On failure gives the
name as it was understood. -/
def parse (s : String) : Except String Dialect :=
  let key := (trimmed s).map Char.toLower
  if key == "postgres" || key == "postgresql" || key == "pg" then .ok postgres
  else if key == "mysql" then .ok mysql
  else .error key

end Dialect

end Querent
