import Querent.Catalog.Basic
import Querent.Row.Budget
import Querent.Row.Cell
import Querent.Row.Columnar
import Querent.Text.Parts
import Querent.Text.Word

/-! Masking of personal data. The name of a column alone decides; values are never inspected. -/
namespace Querent.Mask

/-- Parts of a column's name that mark personal data. -/
def markers : List String := ["EMAIL", "PHONE", "MOBILE", "SSN", "TAX"]

/-- A name with a marker anywhere in it, in any letter case. -/
def isSensitive (name : String) : Bool :=
  let key := name.toList.map Text.keyLetter
  markers.any fun m => Text.occursIn m.toList key

/-- What stands for all that is hidden. -/
def token : String := "***"

/-- The first two and the last two characters stay; of four or fewer none does. -/
def maskText (s : String) : String :=
  let cs := s.toList
  if cs.length ≤ 4 then .ofList (List.replicate cs.length '*')
  else .ofList (cs.take 2 ++ token.toList ++ cs.drop (cs.length - 2))

/-- Null and false tell nothing and stay. -/
def maskCell : Cell → Cell
  | .text s => .text (maskText s)
  | .null => .null
  | .bool false => .bool false
  | _ => .text token

def maskRecord (r : Record) : Record :=
  r.mapWithKey fun name c => if isSensitive name then maskCell c else c

/-- Masks the cells of every sensitive column. -/
def maskRows (rows : List Record) : List Record := rows.map maskRecord

end Querent.Mask

/-! Columns under the names that the business uses for them. -/
namespace Querent

/-- The record with each column under its new name, if it has one. Where two columns come under one
name, the later value takes the place of the earlier. -/
def Record.rename (names : Ordered String) (r : Record) : Record :=
  .ofList (r.entries.map fun (k, c) => ((names.get? k).getD k, c))

def renameRows (names : Ordered String) (rows : List Record) : List Record :=
  rows.map (Record.rename names)

/-! What becomes of a result before it is shown or stored: it is cut to its budget, masked,
renamed and turned into columns, in this order. -/

structure Processed where
  rows : List Record
  table : Columnar

/-- The rows within a budget, masked and under their business names, and their columns. -/
def process (budget : Budget) (names : Ordered String) (rows : List Record) : Processed :=
  let rows := renameRows names (Mask.maskRows (budget.limit rows))
  { rows, table := .ofRows rows }

end Querent
