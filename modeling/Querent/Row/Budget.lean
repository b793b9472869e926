import Querent.Row.Cell

/-! How many rows of a result are kept: a number of rows and a number of bytes as JSON. -/
namespace Querent

/-- The most rows and the most bytes as JSON text. -/
structure Budget where
  maxRows : Nat
  maxBytes : Nat
deriving DecidableEq, Repr

namespace Budget

/-- A hundred rows and two hundred kibibytes. -/
def standard : Budget := { maxRows := 100, maxBytes := 200 * 1024 }

/-- The bytes of some rows as compact JSON text. -/
def byteSize (rows : List Record) : Nat := (rowsJson rows).compact.utf8ByteSize

/-- A fifth of the rows goes, rounded up, but one row stays. -/
def shrunk (n : Nat) : Nat := max (n - (n + 4) / 5) 1

theorem shrunk_lt {n : Nat} (h : 1 < n) : shrunk n < n := by
  unfold shrunk
  omega

/-- Drops a fifth of the rows until they fit or a single one is left. -/
def shrink (maxBytes : Nat) (rows : List Record) : List Record :=
  if _h : 1 < rows.length ∧ maxBytes < byteSize rows then
    shrink maxBytes (rows.take (shrunk rows.length))
  else rows
termination_by rows.length
decreasing_by
  rw [List.length_take]
  exact Nat.lt_of_le_of_lt (Nat.min_le_left _ _) (shrunk_lt _h.1)

/-- The first rows, at most `maxRows`, as many as the steps of `shrink` leave. -/
def limit (b : Budget) (rows : List Record) : List Record :=
  shrink b.maxBytes (rows.take b.maxRows)

end Budget

end Querent
