import Querent.Text.Parts

/-! Arguments of a command line: options with and without a value, under a long name and often
under a letter. Nothing but options is taken. -/
namespace Querent.Command

/-- An option, as it is described to its users. -/
structure Switch where
  long : String
  short : Option Char
  /-- What its value is called, if it takes one. -/
  value : Option String
  required : Bool
  help : String
deriving DecidableEq, Repr

/-- A given option and its value. -/
structure Given where
  long : String
  value : Option String
deriving DecidableEq, Repr

/-- An option that an argument brings. -/
inductive Taken where
  | whole (g : Given)
  /-- Its value is the next argument. -/
  | awaits (long : String)
deriving DecidableEq, Repr

/-- The option that an argument brings; an option takes a value exactly if it is described so. -/
def Switch.taken? (s : Switch) (attached : Option String) : Option Taken :=
  match s.value, attached with
  | none, none => some (.whole { long := s.long, value := none })
  | none, some _ => none
  | some _, some v => some (.whole { long := s.long, value := some v })
  | some _, none => some (.awaits s.long)

/-- What some arguments amount to: options in order, up to a request for help if there is one. -/
structure Arguments where
  given : List Given
  helped : Bool
deriving DecidableEq, Repr

namespace Arguments

/-- A text that can be the value of the option before it. -/
def isValue (s : String) : Bool :=
  match s.toList with
  | '-' :: _ :: _ => false
  | _ => true

/-- How an argument names an option and what it says behind the name. -/
inductive Word where
  | long (name : String) (attached : Option String)
  | short (letter : Char) (attached : Option String)
  /-- Two hyphens alone: nothing behind them is an option. -/
  | stop
  | other
deriving DecidableEq, Repr

def Word.of (arg : String) : Word :=
  match arg.toList with
  | ['-', '-'] => stop
  | '-' :: '-' :: rest =>
    let name := rest.takeWhile (· != '=')
    let attached := match rest.dropWhile (· != '=') with
      | '=' :: value => some (String.ofList value)
      | _ => none
    long (.ofList name) attached
  | ['-', c] => short c none
  | '-' :: c :: '=' :: value => short c (some (.ofList value))
  | '-' :: c :: value => short c (some (.ofList value))
  | _ => other

/-- Puts an option in front of those behind it, unless it comes again there. -/
def cons (g : Given) (rest : Option Arguments) : Option Arguments := do
  let rest ← rest
  if rest.given.any (·.long == g.long) then none
  else some { rest with given := g :: rest.given }

/-- The option that a word names. -/
def Word.taken? (switches : List Switch) : Word → Option Taken
  | long name attached => (switches.find? (·.long == name)).bind (Switch.taken? · attached)
  | short c attached => (switches.find? (·.short == some c)).bind (Switch.taken? · attached)
  | stop | other => none

/-- Reads arguments; no answer stands for a mistake in them. -/
def read (switches : List Switch) : List String → Option Arguments
  | [] => some { given := [], helped := false }
  | arg :: rest =>
    match Word.of arg with
    | .long "help" none => some { given := [], helped := true }
    | .short 'h' _ => some { given := [], helped := true }
    | .stop => if rest.isEmpty then some { given := [], helped := false } else none
    | w =>
      match w.taken? switches, rest with
      | some (.whole g), rest => cons g (read switches rest)
      | some (.awaits long), v :: rest =>
        if isValue v then cons { long, value := some v } (read switches rest) else none
      | _, _ => none

/-- The value given to an option. -/
def value? (a : Arguments) (long : String) : Option String :=
  (a.given.find? (·.long == long)).bind (·.value)

def has (a : Arguments) (long : String) : Bool := a.given.any (·.long == long)

/-- Whether all required options are given. -/
def isComplete (switches : List Switch) (a : Arguments) : Bool :=
  switches.all fun s => !s.required || a.has s.long

end Arguments

end Querent.Command
