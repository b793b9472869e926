import Querent.Row.Budget
import Querent.Settings

/-! What a pipeline is allowed to do with a question and its result. -/
namespace Querent.Pipeline

structure Options where
  /-- The row limit of a statement that brings none. -/
  forceLimit : Nat
  /-- What is kept of a result. -/
  budget : Budget
  queryTimeoutMs : Nat
  forbidFreeJoins : Bool
  /-- Whether a statement that was refused or failed is tried once more. -/
  repairs : Bool
deriving DecidableEq, Repr

namespace Options

def standard : Options where
  forceLimit := 101
  budget := .standard
  queryTimeoutMs := 10000
  forbidFreeJoins := true
  repairs := false

/-- Free joins are never let through. -/
def ofSettings (s : Settings) : Options where
  forceLimit := s.forceLimit
  budget := { maxRows := s.maxRows, maxBytes := s.maxBytes }
  queryTimeoutMs := s.queryTimeoutMs
  forbidFreeJoins := true
  repairs := s.repairEnabled

end Options

end Querent.Pipeline
