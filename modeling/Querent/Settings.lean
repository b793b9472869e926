import Querent.Decimal.Digits
import Querent.Error
import Querent.Text.Parts

/-! Settings from named texts such as environment variables. A name that is unset or blank leaves
its setting at the default. -/
namespace Querent

/-- The two ways in which a model is asked. -/
inductive EndpointStyle where
  | chat
  | completion
deriving DecidableEq, Repr

/-- Reads a style, in any letter case and with blanks around it. -/
def EndpointStyle.parse (s : String) : Except Error EndpointStyle :=
  let key := (trimmed s).map Char.toLower
  if key == "chat" then .ok chat
  else if key == "completion" || key == "completions" then .ok completion
  else .error (.config ("Unknown LLM endpoint style: " ++ key))

structure ModelSettings where
  baseUrl : String
  apiKey : Option String
  model : String
  maxTokens : Nat
  retries : Nat
  styles : List EndpointStyle
deriving DecidableEq, Repr

structure Settings where
  model : ModelSettings
  /-- Where requests are kept; they stay in memory when there is none. -/
  databaseUrl : Option String
  ratePerMinute : Nat
  queryTimeoutMs : Nat
  forceLimit : Nat
  maxRows : Nat
  maxBytes : Nat
  repairEnabled : Bool
deriving DecidableEq, Repr

namespace Settings

def standard : Settings where
  model :=
    { baseUrl := "https://api.openai.com/v1", apiKey := none, model := "gpt-4", maxTokens := 1024
      retries := 2, styles := [.chat, .completion] }
  databaseUrl := none
  ratePerMinute := 30
  queryTimeoutMs := 10000
  forceLimit := 101
  maxRows := 100
  maxBytes := 200 * 1024
  repairEnabled := false

/-- The value of a name that is set and not blank. -/
def value? (lookup : String → Option String) (name : String) : Option String :=
  (lookup name).filter fun v => !isBlankText v

def faultText : Decimal.Fault → String
  | .empty => "cannot parse integer from empty string"
  | .invalidDigit => "invalid digit found in string"
  | .tooLarge => "number too large to fit in target type"

def invalid (name raw why : String) : Error :=
  .config ("Invalid " ++ name ++ "=" ++ raw ++ ": " ++ why)

/-- A number of so many bits, blanks around it apart. -/
def number (lookup : String → Option String) (name : String) (bits fallback : Nat) :
    Except Error Nat :=
  match value? lookup name with
  | none => .ok fallback
  | some raw =>
    match Decimal.readBelow (Decimal.wordBound bits) (Text.trim raw.toList) with
    | .ok n => .ok n
    | .error f => .error (invalid name raw (faultText f))

def flag (lookup : String → Option String) (name : String) (fallback : Bool) :
    Except Error Bool :=
  match value? lookup name with
  | none => .ok fallback
  | some raw =>
    if trimmed raw == "true" then .ok true
    else if trimmed raw == "false" then .ok false
    else .error (invalid name raw "provided string was not `true` or `false`")

/-- The styles between commas, blank ones left out; at least one. -/
def styles (lookup : String → Option String) : Except Error (List EndpointStyle) :=
  match value? lookup "LLM_ENDPOINT_STYLES" with
  | none => .ok standard.model.styles
  | some raw => do
    let parts := (Text.splitAt ',' raw.toList).filter fun p => !Text.isAllBlank p
    match ← parts.mapM fun p => EndpointStyle.parse (.ofList p) with
    | [] => .error (.config "LLM_ENDPOINT_STYLES is empty")
    | styles => .ok styles

/-- The settings that a lookup of names gives. The first fault in this order counts: the styles,
the numbers of the model, then the others. -/
def ofLookup (lookup : String → Option String) : Except Error Settings := do
  let either (a b : String) := value? lookup a <|> value? lookup b
  let d := standard
  let styles ← styles lookup
  let maxTokens ← number lookup "LLM_MAX_TOKENS" 32 d.model.maxTokens
  let retries ← number lookup "LLM_RETRIES" 32 d.model.retries
  let ratePerMinute ← number lookup "RATE_LIMIT_PER_MINUTE" 64 d.ratePerMinute
  let queryTimeoutMs ← number lookup "QUERY_TIMEOUT_MS" 64 d.queryTimeoutMs
  let forceLimit ← number lookup "GUARD_FORCE_LIMIT" 64 d.forceLimit
  let maxRows ← number lookup "RESULT_MAX_ROWS" 64 d.maxRows
  let maxBytes ← number lookup "RESULT_MAX_BYTES" 64 d.maxBytes
  let repairEnabled ← flag lookup "SQL_REPAIR_ENABLED" d.repairEnabled
  return {
    model :=
      { baseUrl := (either "LLM_BASE_URL" "OPENAI_BASE_URL").getD d.model.baseUrl
        apiKey := either "LLM_API_KEY" "OPENAI_API_KEY"
        model := (either "LLM_MODEL" "OPENAI_MODEL").getD d.model.model
        maxTokens, retries, styles }
    databaseUrl := value? lookup "DATABASE_URL"
    ratePerMinute, queryTimeoutMs, forceLimit, maxRows, maxBytes, repairEnabled }

end Settings

end Querent
