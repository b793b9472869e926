import Querent.Proofs.Sql.Item

/-! Queries of bare names as trees, with the text of each and the tables it names.

A query selects from a list of items, each with its joins, under conditions that may hold further
queries, or it is a union. Texts have single blanks. -/
namespace Querent.Sql

/-- A column behind the qualifiers written with it. -/
structure ColumnPath (banned : List String) where
  qualifiers : List (Name banned)
  name : Name banned

namespace ColumnPath

def textBehind {banned : List String} (name : Name banned) : List (Name banned) → List Char
  | [] => name.text
  | q :: qs => q.text ++ '.' :: textBehind name qs

def text {banned : List String} (c : ColumnPath banned) : List Char :=
  textBehind c.name c.qualifiers

end ColumnPath

/-- How a join may open. -/
inductive JoinKind where
  | bare
  | inner
  | left
  | right
  | full
  | cross
  | natural

/-- The blank before a join and the word that opens it, if that is not JOIN. -/
def JoinKind.lead : JoinKind → List Char
  | bare => []
  | inner => " INNER".toList
  | left => " LEFT".toList
  | right => " RIGHT".toList
  | full => " FULL".toList
  | cross => " CROSS".toList
  | natural => " NATURAL".toList

/-- An equality of two columns. -/
structure ColumnPair (banned : List String) where
  left : ColumnPath banned
  right : ColumnPath banned

def ColumnPair.text {banned : List String} (e : ColumnPair banned) : List Char :=
  e.left.text ++ (" = ".toList ++ e.right.text)

/-- Equalities with AND between them. -/
def conjunction {banned : List String} (e : ColumnPair banned) :
    List (ColumnPair banned) → List Char
  | [] => e.text
  | e' :: es => e.text ++ (" AND ".toList ++ conjunction e' es)

/-- The condition of a join, if it has one. -/
def onText {banned : List String} : List (ColumnPair banned) → List Char
  | [] => []
  | e :: es => " ON ".toList ++ conjunction e es

/-- A text in parentheses with blanks inside. -/
def parenthesized (s : List Char) : List Char := "( ".toList ++ (s ++ " )".toList)

namespace Query

/-- A name of a query: no clause word and no call that takes a FROM. -/
abbrev Word := Name fromFunctions

abbrev Column := ColumnPath fromFunctions

/-- The calls whose arguments hold a FROM. -/
inductive FromCall where
  | extract
  | substring
  | trim
  | overlay

def FromCall.name : FromCall → String
  | extract => "EXTRACT"
  | substring => "SUBSTRING"
  | trim => "TRIM"
  | overlay => "OVERLAY"

/-- An entry of a select list. -/
inductive Selected where
  | star
  | column (c : Column)
  | call (f : FromCall) (x c : Column)

def Selected.text : Selected → List Char
  | star => ['*']
  | column c => c.text
  | call f x c => f.name.toList ++ '(' :: (x.text ++ (" FROM ".toList ++ (c.text ++ [')'])))

/-- A select list: its first entry and the others. -/
def selectText (first : Selected) : List Selected → List Char
  | [] => first.text
  | s :: others => first.text ++ (", ".toList ++ selectText s others)

inductive Comparator where
  | eq
  | ne
  | lt
  | gt
  | le
  | ge

def Comparator.text : Comparator → List Char
  | eq => "=".toList
  | ne => "<>".toList
  | lt => "<".toList
  | gt => ">".toList
  | le => "<=".toList
  | ge => ">=".toList

/-- One side of a comparison. -/
inductive Operand where
  | column (c : Column)
  | number (n : Nat)

def Operand.text : Operand → List Char
  | column c => c.text
  | number n => (toString n).toList

end Query

open Query

mutual

inductive Query where
  | select (first : Selected) (others : List Selected) (items : Items) (filter : Filter)
  | union (all : Bool) (left right : Query)

/-- A FROM list: items, each with its joins. -/
inductive Items where
  | one (source : Source) (joins : Joins)
  | more (source : Source) (joins : Joins) (rest : Items)

inductive Joins where
  | nil
  | cons (kind : JoinKind) (source : Source) (on : List (ColumnPair fromFunctions)) (rest : Joins)

/-- A table or a query in parentheses with its alias. -/
inductive Source where
  | table (item : TableItem fromFunctions)
  | derived (query : Query) (calledAs : Query.Word)

inductive Filter where
  | none
  | holds (condition : Condition)

inductive Condition where
  | compare (left : Operand) (op : Comparator) (right : Operand)
  | distinct (left right : Query.Column)
  | within (column : Query.Column) (query : Query)
  | present (query : Query)
  | and (left right : Condition)
  | or (left right : Condition)

end

mutual

def Query.text : Query → List Char
  | .select first others items filter =>
    "SELECT ".toList ++ (selectText first others ++
      (" FROM ".toList ++ (items.text ++ filter.text)))
  | .union all left right =>
    left.text ++ ((if all then " UNION ALL ".toList else " UNION ".toList) ++ right.text)

def Items.text : Items → List Char
  | .one source joins => source.text ++ joins.text
  | .more source joins rest => source.text ++ (joins.text ++ (", ".toList ++ rest.text))

def Joins.text : Joins → List Char
  | .nil => []
  | .cons kind source on rest =>
    kind.lead ++ (" JOIN ".toList ++ (source.text ++ (onText on ++ rest.text)))

def Source.text : Source → List Char
  | .table item => item.text
  | .derived query calledAs => parenthesized query.text ++ ' ' :: calledAs.text

def Filter.text : Filter → List Char
  | .none => []
  | .holds condition => " WHERE ".toList ++ condition.text

def Condition.text : Condition → List Char
  | .compare left op right => left.text ++ ' ' :: (op.text ++ ' ' :: right.text)
  | .distinct left right => left.text ++ (" IS DISTINCT FROM ".toList ++ right.text)
  | .within column query => column.text ++ (" IN ".toList ++ parenthesized query.text)
  | .present query => "EXISTS ".toList ++ parenthesized query.text
  | .and left right => left.text ++ (" AND ".toList ++ right.text)
  | .or left right => left.text ++ (" OR ".toList ++ right.text)

end

mutual

/-- The tables a query names, at every level, each time it does. -/
def Query.tables (d : Dialect) : Query → List TableRef
  | .select _ _ items filter => items.tables d ++ filter.tables d
  | .union _ left right => left.tables d ++ right.tables d

def Items.tables (d : Dialect) : Items → List TableRef
  | .one source joins => source.tables d ++ joins.tables d
  | .more source joins rest => source.tables d ++ (joins.tables d ++ rest.tables d)

def Joins.tables (d : Dialect) : Joins → List TableRef
  | .nil => []
  | .cons _ source _ rest => source.tables d ++ rest.tables d

def Source.tables (d : Dialect) : Source → List TableRef
  | .table item => [item.ref d]
  | .derived query _ => query.tables d

def Filter.tables (d : Dialect) : Filter → List TableRef
  | .none => []
  | .holds condition => condition.tables d

def Condition.tables (d : Dialect) : Condition → List TableRef
  | .compare _ _ _ => []
  | .distinct _ _ => []
  | .within _ query => query.tables d
  | .present query => query.tables d
  | .and left right => left.tables d ++ right.tables d
  | .or left right => left.tables d ++ right.tables d

end

end Querent.Sql
