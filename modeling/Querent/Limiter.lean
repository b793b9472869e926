/-! A limit on the requests of each workspace in a sliding window of time.

Times are milliseconds on a clock that never goes back. Now and then workspaces without a request
in the window are forgotten, so that the memory stays small. -/
namespace Querent

/-- The accepted requests of one workspace, oldest first. -/
structure Hits where
  workspace : Int
  times : List Nat
deriving DecidableEq, Repr

structure Limiter where
  limit : Nat
  window : Nat
  hits : List Hits
  /-- How many checks there have been. -/
  checks : Nat
deriving DecidableEq, Repr

namespace Limiter

/-- The checks from one sweep to the next. -/
def sweepEvery : Nat := 256

def new (limit window : Nat) : Limiter := { limit, window, hits := [], checks := 0 }

/-- Thirty a minute. -/
def standard : Limiter := new 30 60000

/-- The requests still in the window: the oldest go as long as they have left it. -/
def recent (window now : Nat) (times : List Nat) : List Nat :=
  times.dropWhile fun t => window ≤ now - t

def times (l : Limiter) (workspace : Int) : List Nat :=
  ((l.hits.find? (·.workspace == workspace)).map (·.times)).getD []

/-- Puts the times of a workspace in place of those it has. -/
def putHits (workspace : Int) (times : List Nat) : List Hits → List Hits
  | [] => [{ workspace, times }]
  | h :: rest =>
    if h.workspace == workspace then { workspace, times } :: rest
    else h :: putHits workspace times rest

/-- Forgets the workspaces whose newest request has left the window. -/
def sweep (l : Limiter) (now : Nat) : Limiter :=
  { l with hits := l.hits.filter fun h =>
      match h.times.getLast? with
      | some newest => decide (now - newest < l.window)
      | none => false }

/-- Whether a request of a workspace is let through. Those turned away are not counted. -/
def check (l : Limiter) (workspace : Int) (now : Nat) : Bool × Limiter :=
  let swept := if l.checks % sweepEvery == sweepEvery - 1 then l.sweep now else l
  let times := recent l.window now (swept.times workspace)
  let allowed := decide (times.length < l.limit)
  let times := if allowed then times ++ [now] else times
  (allowed, { swept with hits := putHits workspace times swept.hits, checks := l.checks + 1 })

/-- How many workspaces are remembered. -/
def tracked (l : Limiter) : Nat := l.hits.length

end Limiter

end Querent
