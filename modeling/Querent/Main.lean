import Querent.Command.Run

/-! The program. Files, variables and the clock are those of the machine; servers are out of its
reach. -/
namespace Querent

/-- Why a server cannot be reached. -/
def noNetwork : String := "Network is unreachable (os error 101)"

/-- A random name for a response, in the form of a UUID of version 4. -/
def randomResponse : IO String := do
  let bytes ← IO.getRandomBytes 16
  let bytes := bytes.toList.zipIdx.map fun (b, i) =>
    if i == 6 then b % 16 + 0x40 else if i == 8 then b % 64 + 0x80 else b
  return Database.uuidText bytes

/-- The day that is some days later. -/
def dayAfter : Nat → Date → Date
  | 0, d => d
  | n + 1, d => dayAfter n (d.next?.getD d)

def firstDay : Date := ⟨1970, 1, 1, by decide, by decide, by decide⟩

/-- The moment some milliseconds behind the start of 1970. -/
def momentAt (milliseconds : Nat) : Moment :=
  let seconds := milliseconds / 1000
  { date := dayAfter (seconds / 86400) firstDay
    time := (Time.of? (seconds / 3600 % 24) (seconds / 60 % 60) (seconds % 60)
      (milliseconds % 1000 * 1_000_000)).getD .midnight }

/-- Of the moments of one run only the order counts, so they too are told by the clock that never
goes back. -/
def readClock : IO Pipeline.Now := do
  let milliseconds ← IO.monoMsNow
  return { milliseconds, moment := momentAt milliseconds }

/-- Why a file could not be used. -/
def reason : IO.Error → String
  | .noFileOrDirectory _ code _ => "No such file or directory (os error " ++ toString code ++ ")"
  | .permissionDenied _ code _ => "Permission denied (os error " ++ toString code ++ ")"
  | e => toString e

/-- All that a stream still has. -/
partial def readAll (s : IO.FS.Stream) (before : String) : IO String := do
  let line ← s.getLine
  if line.isEmpty then return before else readAll s (before ++ line)

/-- Carries out an effect. -/
def perform : (e : Command.Effect) → IO e.Result
  | .lookup name => IO.getEnv name
  | .readFile path => do
    match ← (IO.FS.readFile path).toBaseIO with
    | .ok text => return .ok text
    | .error e => return .error (reason e)
  | .writeFile path text => do
    match ← (IO.FS.writeFile path text).toBaseIO with
    | .ok () => return .ok ()
    | .error e => return .error (reason e)
  | .readInput => do readAll (← IO.getStdin) ""
  | .model (.post _) => return none
  | .model (.pause milliseconds) => IO.sleep milliseconds.toUInt32
  | .database (.connect _ _) => return .error (.unreachable noNetwork)
  | .database (.command _ _) => return .error (.unreachable noNetwork)
  | .database (.query _ _ _) =>
    return { columns := [], rows := [], ended := .error (.unreachable noNetwork) }
  | .database (.close _) => return ()
  | .freshResponse => randomResponse
  | .clock => readClock

end Querent

def main (args : List String) : IO UInt32 := do
  let ended ← (Querent.Command.main args).runIn Querent.perform
  IO.print ended.output
  unless ended.complaint.isEmpty do IO.eprintln ended.complaint
  return ended.code.toUInt32
