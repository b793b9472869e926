import Querent.Catalog.Json
import Querent.Connection.Config

/-! One workspace described by what is at hand: its owner, its catalogue and its database. -/
namespace Querent

structure Workspace where
  owner : Int
  snapshot : Snapshot
  dataSource : Option DataSource

namespace Workspace

def id (w : Workspace) : Int := w.snapshot.workspace

def isOwner (w : Workspace) (user workspace : Int) : Bool :=
  user == w.owner && workspace == w.id

/-- The catalogue of a workspace: that of another one is empty. -/
def snapshotOf (w : Workspace) (workspace : Int) : Snapshot :=
  if workspace == w.id then w.snapshot else .empty workspace

def dataSourceOf (w : Workspace) (workspace : Int) : Option DataSource :=
  if workspace == w.id then w.dataSource else none

/-- The database that a stored description names: its engine is a text under `dialect`, or under
`type` where there is no `dialect`. -/
def readDataSource (text : String) : Except Error DataSource :=
  match Json.parse text with
  | none => .error .json
  | some config =>
    match (config.get? "dialect" <|> config.get? "type").bind Json.string? with
    | none => .error (.config "Connection file has no dialect")
    | some name => (Dialect.named name).map fun dialect => { dialect, config }

/-- A file's text, or why it cannot be read. -/
abbrev FileText := Except String String

def readSnapshot (path : String) (file : FileText) : Except Error Snapshot :=
  match file with
  | .error why => .error (.config ("Failed to read metadata " ++ path ++ ": " ++ why))
  | .ok text =>
    match Snapshot.parse text with
    | some s => .ok s
    | none => .error .json

def readConnectionFile (path : String) (file : FileText) : Except Error DataSource :=
  match file with
  | .error why => .error (.config ("Failed to read connection " ++ path ++ ": " ++ why))
  | .ok text => readDataSource text

/-- The workspace of a catalogue file and, if there is one, a connection file. -/
def ofFiles (owner : Int) (snapshot : String × FileText)
    (connection : Option (String × FileText)) : Except Error Workspace := do
  let s ← readSnapshot snapshot.1 snapshot.2
  let dataSource ← connection.mapM fun (path, file) => readConnectionFile path file
  return { owner, snapshot := s, dataSource }

end Workspace

end Querent
