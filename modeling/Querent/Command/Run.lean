import Querent.Catalog.Table
import Querent.Command.Effect
import Querent.Command.EnvFile
import Querent.Command.Help
import Querent.Database.Execute
import Querent.Database.Pool
import Querent.Naming
import Querent.Request.Table
import Querent.Workspace

/-! The commands carried out. -/
namespace Querent.Command

/-- Named texts, as an environment has them. -/
abbrev Variables := List (String × String)

def Variables.get? (vs : Variables) (name : String) : Option String :=
  (vs.find? (·.1 == name)).map (·.2)

/-- A variable of the environment, or else of a file. -/
def lookup (file : Variables) (name : String) : Work (Option String) := do
  return (← Work.lookup name) <|> file.get? name

/-- The text of a value's pieces. -/
def assemble (file : Variables) : List EnvFile.Piece → Work String
  | [] => return ""
  | .char c :: rest => do return String.singleton c ++ (← assemble file rest)
  | .reference name :: rest => do
    let value ← lookup file name
    return value.getD "" ++ (← assemble file rest)

/-- The variables of a file whose names mean nothing yet, one after the other. -/
def define (file : Variables) : List (String × List EnvFile.Piece) → Work Variables
  | [] => return file
  | (name, pieces) :: rest => do
    let value ← assemble file pieces
    match ← lookup file name with
    | some _ => define file rest
    | none => define (file ++ [(name, value)]) rest

/-- The file that fills in variables which are not set. -/
def envFile : String := ".env"

/-- The variables of the file, if there is one. -/
def readEnvFile : Work Variables := do
  match ← Work.readFile envFile with
  | .ok text => define [] (EnvFile.read text)
  | .error _ => return []

/-- The names that settings are found under. -/
def settingNames : List String :=
  ["LLM_BASE_URL", "OPENAI_BASE_URL", "LLM_API_KEY", "OPENAI_API_KEY", "LLM_MODEL",
    "OPENAI_MODEL", "LLM_MAX_TOKENS", "LLM_RETRIES", "LLM_ENDPOINT_STYLES", "DATABASE_URL",
    "RATE_LIMIT_PER_MINUTE", "QUERY_TIMEOUT_MS", "GUARD_FORCE_LIMIT", "RESULT_MAX_ROWS",
    "RESULT_MAX_BYTES", "SQL_REPAIR_ENABLED"]

/-- The values of some names that are set. -/
def gather (file : Variables) : List String → Work Variables
  | [] => return []
  | name :: rest => do
    let value ← lookup file name
    let others ← gather file rest
    return match value with
      | some v => (name, v) :: others
      | none => others

/-- The settings of the environment and the file. -/
def readSettings : Work (Except Error Settings) := do
  let set ← gather (← readEnvFile) settingNames
  return Settings.ofLookup set.get?

/-- Guards a statement and gives the text to run. -/
def runGuard (s : Settings) (metadata : String) (dialect : Dialect) (sql : Option String)
    (allowFreeJoins : Bool) : Work Ended := do
  match Workspace.readSnapshot metadata (← Work.readFile metadata) with
  | .error e => return .failure e.message
  | .ok snapshot =>
    let sql ← match sql with
      | some sql => pure sql
      | none => Work.readInput
    let policy : Policy :=
      { dialect, allowedSchemas := some snapshot.schemas, forceLimit := s.forceLimit
        forbidFreeJoins := !allowFreeJoins }
    return match Guard.validate snapshot.foreignKeys policy sql with
      | .ok sql => .success (sql ++ "\n")
      | .error v => .failure ("SQL rejected: " ++ v.message)

/-- The workspace of two files. -/
def readWorkspace (owner : Int) (metadata connection : String) :
    Work (Except Error Workspace) := do
  match Workspace.readSnapshot metadata (← Work.readFile metadata) with
  | .error e => return .error e
  | .ok snapshot =>
    let source := Workspace.readConnectionFile connection (← Work.readFile connection)
    return source.map fun d => { owner, snapshot, dataSource := some d }

/-- Answers the calls of a pipeline: out of memory, or in a session of the application's database
where there is one for the requests. -/
def answer (s : Settings) (w : Workspace) (session : Option Nat) :
    (c : Pipeline.Call) → Pipeline.Memory → Work (c.Reply × Pipeline.Memory)
  | .allow workspace, m => do
    let (allowed, limiter) := m.limiter.check workspace (← Work.clock).milliseconds
    return (allowed, { m with limiter })
  | .isOwner user workspace, m => return (.ok (w.isOwner user workspace), m)
  | .dataSource workspace, m => return (.ok (w.dataSourceOf workspace), m)
  | .snapshot workspace, m => return (.ok (w.snapshotOf workspace), m)
  | .create user workspace prompt, m =>
    match session with
    | some session => do
      return (← Work.ofTalk (Request.Table.create session user workspace prompt), m)
    | none => do
      let (r, store) := m.store.create user workspace prompt (← Work.clock).moment
      return (.ok r, { m with store })
  | .complete id update, m =>
    match session with
    | some session => do return (← Work.ofTalk (Request.Table.complete session id update), m)
    | none => do
      let (r, store) := m.store.complete id update (← Work.clock).moment
      return (r, { m with store })
  | .find workspace id, m =>
    match session with
    | some session => do return (← Work.ofTalk (Request.Table.find session workspace id), m)
    | none => return (.ok (m.store.find workspace id), m)
  | .latest workspace, m =>
    match session with
    | some session => do return (← Work.ofTalk (Request.Table.latest session workspace), m)
    | none => return (.ok (m.store.latest workspace), m)
  | .list workspace limit, m =>
    match session with
    | some session => do return (← Work.ofTalk (Request.Table.list session workspace limit), m)
    | none => return (.ok (m.store.list workspace limit), m)
  | .model a, m => do return (← Work.ofExchange (Llm.Client.complete s.model a), m)
  | .execute connection sql timeoutMs, m => do
    return (← Work.ofTalk (Database.execute connection sql timeoutMs), m)
  | .freshResponse, m => do return (← Dialogue.question Effect.freshResponse, m)

/-- The milliseconds that the limit of a minute counts in. -/
def minute : Nat := 60 * 1000

/-- Makes a request in a workspace and sees it through. -/
def runRequest (s : Settings) (w : Workspace) (session : Option Nat) (prompt : String) :
    Work Ended := do
  let memory : Pipeline.Memory := { limiter := .new s.ratePerMinute minute, store := .empty }
  let (r, _) ← (Pipeline.create (.ofSettings s) w.owner w.id prompt).serve (answer s w session)
    memory
  return match r with
    | .ok a => .success (a.toJson.pretty ++ "\n")
    | .error e => .failure e.userMessage

/-- Opens the application's database. -/
def openDatabase (url : String) : Work (Except Database.Fault Nat) :=
  Work.ofTalk (Database.openAt url).run

/-- Asks a question of the workspace of two files. -/
def runAsk (s : Settings) (metadata connection : String) (user : Int) (prompt : String) :
    Work Ended := do
  match ← readWorkspace user metadata connection with
  | .error e => return .failure e.message
  | .ok w =>
    match s.databaseUrl with
    | none => runRequest s w none prompt
    | some url =>
      match ← openDatabase url with
      | .error f => return .failure f.message
      | .ok session => runRequest s w (some session) prompt

/-- Has a catalogue named by the model. -/
def named (s : Settings) (snapshot : Snapshot) : Work Snapshot := do
  let (snapshot, _) ← (Naming.nameSnapshot snapshot).relay fun a =>
    Work.ofExchange (Llm.Client.complete s.model a)
  return snapshot

/-- Has the catalogue of a file named, and writes it back. -/
def nameFile (s : Settings) (path : String) : Work Ended := do
  match Workspace.readSnapshot path (← Work.readFile path) with
  | .error e => return .failure e.message
  | .ok snapshot =>
    let snapshot ← named s snapshot
    return match ← Work.writeFile path snapshot.toJson.pretty with
      | .ok () => .success ""
      | .error why => .failure ("Failed to write " ++ path ++ "\n\nCaused by:\n    " ++ why)

/-- Has the stored catalogue of a workspace named, and stores the names. -/
def nameStored (s : Settings) (url : String) (workspace : Int) : Work Ended := do
  match ← openDatabase url with
  | .error f => return .failure f.message
  | .ok session =>
    match ← Work.ofTalk (Catalog.load session workspace).run with
    | .error e => return .failure e.message
    | .ok snapshot =>
      let snapshot ← named s snapshot
      return match ← Work.ofTalk (Catalog.saveNames session snapshot).run with
        | .ok () => .success ""
        | .error e => .failure e.message

def runNameTables (s : Settings) (metadata : Option String) (workspace : Option Int) :
    Work Ended :=
  match metadata, s.databaseUrl, workspace with
  | some path, _, _ => nameFile s path
  | none, some url, some workspace => nameStored s url workspace
  | none, _, _ => return .failure "Pass --metadata, or set DATABASE_URL and pass --workspace"

/-- Carries out a command. -/
def run (s : Settings) : Command → Work Ended
  | .guard metadata dialect sql allowFreeJoins => runGuard s metadata dialect sql allowFreeJoins
  | .ask metadata connection user prompt => runAsk s metadata connection user prompt
  | .nameTables metadata workspace => runNameTables s metadata workspace

/-- Does what a command line asks for. The settings are read before any command is carried out. -/
def main (args : List String) : Work Ended :=
  match wish args with
  | .mistake => return .mistake
  | .help text => return .success text
  | .run c => do
    match ← readSettings with
    | .error e => return .failure e.message
    | .ok s => run s c

end Querent.Command
