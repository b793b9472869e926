import Querent.Command.Basic

/-! What a command line asks for, and the words in which the program describes itself. -/
namespace Querent.Command

/-- What is to be done for a command line. -/
inductive Wish where
  | run (c : Command)
  | help (text : String)
  /-- The command line is mistaken. -/
  | mistake
deriving DecidableEq, Repr

/-- The name that the program is called by. -/
def programName : String := "nlq"

def about : String := "Natural-language questions answered with guarded, read-only SQL"

/-- A text with blanks behind it up to a width. -/
def padTo (width : Nat) (s : String) : String :=
  s ++ String.ofList (List.replicate (width - s.length) ' ')

/-- Entries in two columns. -/
def entries (rows : List (String × String)) : String :=
  let width := rows.foldl (fun w (s, _) => max w s.length) 0
  String.join (rows.map fun (s, help) => "  " ++ padTo width s ++ "  " ++ help ++ "\n")

def Switch.usage (s : Switch) : String :=
  "--" ++ s.long ++ ((s.value.map fun v => " <" ++ v ++ ">").getD "")

/-- The option as it is listed: with its letter, or with blanks in the letter's place. -/
def Switch.entry (s : Switch) : String × String :=
  let letter := match s.short with
    | some c => String.ofList ['-', c, ',', ' ']
    | none => "    "
  (letter ++ s.usage, s.help)

def helpEntry : String × String := ("-h, --help", "Print help")

def Description.text (d : Description) : String :=
  let required := (d.switches.filter (·.required)).map fun s => " " ++ s.usage
  d.about ++ "\n\nUsage: " ++ programName ++ " " ++ d.name ++ " [OPTIONS]" ++
    String.join required ++ "\n\nOptions:\n" ++
    entries (d.switches.map Switch.entry ++ [helpEntry])

/-- What the command that gives help does. -/
def helpAbout : String := "Print this message or the help of the given subcommand(s)"

/-- The description of the command that gives help. -/
def helpText : String :=
  helpAbout ++ "\n\nUsage: " ++ programName ++ " help [COMMAND]...\n\nArguments:\n" ++
    entries [("[COMMAND]...", "Print help for the subcommand(s)")]

/-- The description of the program. -/
def programText : String :=
  about ++ "\n\nUsage: " ++ programName ++ " <COMMAND>\n\nCommands:\n" ++
    entries (descriptions.map (fun d => (d.name, d.about)) ++
      [("help", helpAbout)]) ++
    "\nOptions:\n" ++ entries [helpEntry]

/-- What the options of a command ask for. -/
def wishOf (d : Description) (args : List String) : Wish :=
  match Arguments.read d.switches args with
  | none => .mistake
  | some a =>
    match ofArguments d.name a with
    | none => .mistake
    | some c =>
      if a.helped then .help d.text
      else if a.isComplete d.switches then .run c
      else .mistake

/-- The help on a command, or on the program where none is named. -/
def helpOn : List String → Wish
  | [] => .help programText
  | [name] =>
    match descriptions.find? (·.name == name) with
    | some d => .help d.text
    | none => if name == "help" then .help helpText else .mistake
  | _ => .mistake

/-- What a command line asks for. -/
def wish : List String → Wish
  | [] => .mistake
  | name :: args =>
    match Arguments.Word.of name with
    | .long "help" none | .short 'h' _ => .help programText
    | _ =>
      if name == "help" then helpOn args
      else
        match descriptions.find? (·.name == name) with
        | some d => wishOf d args
        | none => .mistake

end Querent.Command
