import Querent.Command.Effect
import Querent.Database.Session
import Querent.Llm.Client
import Querent.Text.Blank
import Querent.Text.Parts

/-! A database server that follows a script: each query takes the next reply. -/
namespace Querent.Scripted

/-- The reply to a query. -/
structure Reply where
  columns : List Database.Column
  rows : List (List Database.Sent)
  /-- The number of rows where none is given. -/
  affected : Option Nat
  /-- What the query fails with after its rows. -/
  error : Option String

def Reply.none : Reply := { columns := [], rows := [], affected := .none, error := .none }

/-- A statement on one line, and its parameters. -/
structure Statement where
  sql : String
  params : List Database.Param

structure Engine where
  dialect : Dialect
  replies : List Reply
  /-- Parts of statements, and what a statement with such a part fails with. -/
  failures : List (String × String)
  /-- What every log-in fails with. -/
  refusal : Option String
  /-- Whether it never answers. -/
  silent : Bool
  /-- What was run, the newest first. -/
  statements : List Statement
  /-- The user and the database of each log-in, the newest first. -/
  sessions : List (String × String)

namespace Engine

/-- The text of a statement with single blanks. -/
def oneLine (sql : String) : String := trimmed (.ofList (Text.squeeze sql.toList))

/-- A refusal in the engine's words: MySQL numbers its own. -/
def refused (e : Engine) (number : Nat) (text : String) : Database.Fault :=
  match e.dialect with
  | .postgres => .refused none text
  | .mysql => .refused (some (number, "42000")) text

def loginNumber : Nat := 1045

def statementNumber : Nat := 1064

/-- What a statement is scripted to fail with. -/
def failure (e : Engine) (sql : String) : Option Database.Fault :=
  (e.failures.find? fun (part, _) => Text.occursIn part.toList (oneLine sql).toList).map
    fun (_, text) => e.refused statementNumber text

def record (e : Engine) (sql : String) (params : List Database.Param) : Engine :=
  { e with statements := { sql := oneLine sql, params } :: e.statements }

/-- Nobody listens on the first port, and encryption is not to be had. -/
def connect (e : Engine) (session : Nat) (c : Connection) : Except Database.Fault Nat × Engine :=
  if c.port == 1 then (.error (.unreachable "Connection refused (os error 111)"), e)
  else if e.silent then (.error .timedOut, e)
  else if c.ssl then (.error .unencrypted, e)
  else
    let e := { e with sessions := (c.user, c.database) :: e.sessions }
    match e.refusal with
    | some text => (.error (e.refused loginNumber text), e)
    | none => (.ok session, e)

def command (e : Engine) (sql : String) : Except Database.Fault Unit × Engine :=
  let e := e.record sql []
  match e.failure sql with
  | some f => (.error f, e)
  | none => (.ok (), e)

/-- What a query brings with a reply. -/
def brought (e : Engine) (r : Reply) : Database.Brought where
  columns := r.columns
  rows := r.rows
  ended := match r.error with
    | some text => .error (e.refused statementNumber text)
    | none => .ok (r.affected.getD r.rows.length)

def query (e : Engine) (sql : String) (params : List Database.Param) :
    Database.Brought × Engine :=
  let e := e.record sql params
  let reply := e.replies.head?.getD .none
  let e := { e with replies := e.replies.drop 1 }
  match e.failure sql with
  | some f => ({ columns := [], rows := [], ended := .error f }, e)
  | none => (e.brought reply, e)

/-- Answers; its sessions have the given number. -/
def answer (session : Nat) : (c : Database.Call) → Engine → c.Reply × Engine
  | .connect c _, e => e.connect session c
  | .command _ sql, e => e.command sql
  | .query _ sql params, e => e.query sql params
  | .close _, e => ((), e)

end Engine

/-! A server for a model that follows a script: it gives its responses in turn. -/

structure Host where
  /-- What the addresses on the server begin with. -/
  address : String
  /-- The responses in turn; none stands for a connection that is closed without one. -/
  responses : List (Option Llm.Response)
  /-- What was posted to it, the newest first. -/
  posts : List Llm.Post

namespace Host

/-- The path of an address on the server. -/
def path? (h : Host) (url : String) : Option String :=
  (Text.dropLead? h.address.toList url.toList).map String.ofList

/-- What is answered when all responses are used up. -/
def exhausted : Llm.Response := { status := 500, body := "" }

/-- A post elsewhere reaches nobody, and neither does one that cannot be written down. -/
def answer : (s : Llm.Step) → Host → s.Result × Host
  | .pause _, h => ((), h)
  | .post p, h =>
    if p.isSendable && (h.path? p.url).isSome then
      ((h.responses.head?).getD (some exhausted),
        { h with responses := h.responses.drop 1, posts := p :: h.posts })
    else (none, h)

end Host

/-! A machine that follows a script: its files, its variables, and the servers it can reach. -/

structure Machine where
  environment : List (String × String)
  files : List (String × String)
  input : String
  host : Host
  /-- The database servers, each under its port. -/
  engines : List (Nat × Engine)
  response : String
  now : Pipeline.Now

namespace Machine

/-- Why a file that is not there cannot be read. -/
def noFile : String := "No such file or directory (os error 2)"

def contents (files : List (String × String)) (path : String) : Except String String :=
  match files.find? (·.1 == path) with
  | some (_, text) => .ok text
  | none => .error noFile

def writeFile (path text : String) : List (String × String) → List (String × String)
  | [] => [(path, text)]
  | (p, old) :: rest => if p == path then (p, text) :: rest else (p, old) :: writeFile path text rest

/-- The port that a call goes to: sessions are numbered by it. -/
def portOf : Database.Call → Nat
  | .connect c _ => c.port
  | .command session _ => session
  | .query session _ _ => session
  | .close session => session

/-- What nobody answers. -/
def unanswered : (c : Database.Call) → c.Reply
  | .connect _ _ => .error (.unreachable "Connection refused (os error 111)")
  | .command _ _ => .error .timedOut
  | .query _ _ _ => { columns := [], rows := [], ended := .error .timedOut }
  | .close _ => ()

/-- The answer of the engine on a port. -/
def onEngine (c : Database.Call) (port : Nat) :
    List (Nat × Engine) → c.Reply × List (Nat × Engine)
  | [] => (unanswered c, [])
  | (p, e) :: rest =>
    if p == port then
      let (r, e) := e.answer port c
      (r, (p, e) :: rest)
    else
      let (r, rest) := onEngine c port rest
      (r, (p, e) :: rest)

def answer : (e : Command.Effect) → Machine → e.Result × Machine
  | .lookup name, m => ((m.environment.find? (·.1 == name)).map (·.2), m)
  | .readFile path, m => (contents m.files path, m)
  | .writeFile path text, m => (.ok (), { m with files := writeFile path text m.files })
  | .readInput, m => (m.input, m)
  | .model s, m =>
    let (r, host) := Host.answer s m.host
    (r, { m with host })
  | .database c, m =>
    let (r, engines) := onEngine c (portOf c) m.engines
    (r, { m with engines })
  | .freshResponse, m => (m.response, m)
  | .clock, m => (m.now, m)

end Machine

end Querent.Scripted
