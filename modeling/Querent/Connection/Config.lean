import Querent.Error
import Querent.Json.Fields
import Querent.Json.Printer
import Querent.Text.Quoted

/-! Where a workspace's database is and who logs in there. -/
namespace Querent

open Json (Tree Fields)

structure Connection where
  dialect : Dialect
  host : String
  port : Nat
  database : String
  user : String
  password : String
  ssl : Bool
deriving DecidableEq

namespace Dialect

/-- Reads the name an engine has in stored settings. -/
def ofTree (t : Tree) : Option Dialect :=
  match t.tag? with
  | some "postgresql" => some postgres
  | some "postgres" => some postgres
  | some "mysql" => some mysql
  | _ => none

/-- Reads an engine's name; a name that is none is a fault of the configuration. -/
def named (s : String) : Except Error Dialect :=
  (parse s).mapError fun other => .config ("Unsupported dialect: " ++ other)

/-- The name in diagnostics. -/
def label : Dialect → String
  | postgres => "Postgres"
  | mysql => "Mysql"

end Dialect

namespace Connection

def toJson (c : Connection) : Json :=
  .object [("dialect", .string c.dialect.name), ("host", .string c.host), ("port", .ofNat c.port),
    ("database", .string c.database), ("user", .string c.user), ("password", .string c.password),
    ("ssl", .bool c.ssl)]

def ofTree (t : Tree) : Option Connection := do
  let f ← Fields.read ["dialect", "host", "port", "database", "user", "password", "ssl"] t
  some
    { dialect := ← f.required "dialect" Dialect.ofTree
      host := ← f.required "host" Tree.string?
      port := ← f.required "port" Tree.port?
      database := ← f.required "database" Tree.string?
      user := ← f.required "user" Tree.string?
      password := ← f.required "password" Tree.string?
      ssl := ← f.orElse "ssl" Tree.bool? false }

/-- The connection that an object describes for an engine. Encryption is asked for on PostgreSQL
alone, and only by a plain true. -/
def ofJson (dialect : Dialect) (j : Json) : Except Error Connection :=
  let read : Option Connection := do
    let port ← (j.get? "port").bind Json.int?
    if 0 ≤ port && port < 65536 then
      some
        { dialect
          host := ← (j.get? "host").bind Json.string?
          port := port.toNat
          database := ← (j.get? "database").bind Json.string?
          user := ← (j.get? "user").bind Json.string?
          password := ← (j.get? "password").bind Json.string?
          ssl := dialect == .postgres && ((j.get? "ssl").bind Json.bool?).getD false }
    else none
  match read with
  | some c => .ok c
  | none => .error (.notFound ("Invalid " ++ dialect.name ++ " config"))

/-- The connection for diagnostics: the password is hidden. -/
def diagnostic (c : Connection) : String :=
  "ConnectionConfig \x7b dialect: " ++ c.dialect.label ++ ", host: " ++ Text.quoted c.host ++
    ", port: " ++ toString c.port ++ ", database: " ++ Text.quoted c.database ++ ", user: " ++
    Text.quoted c.user ++ ", password: \"***\", ssl: " ++ (if c.ssl then "true" else "false") ++
    " \x7d"

end Connection

/-- A workspace's database as it is stored: an engine, and what a connection to it needs. -/
structure DataSource where
  dialect : Dialect
  config : Json

/-- The data source for diagnostics: what is needed to log in is hidden. -/
def DataSource.diagnostic (d : DataSource) : String :=
  "DataSourceDescriptor \x7b dialect: " ++ d.dialect.label ++ ", .. \x7d"

end Querent
