import Querent.Error
import Querent.Llm.Message
import Querent.Text.Parts

/-! The texts that a model is given, with places for what belongs to one request. -/
namespace Querent.Prompt

/-- What the model is told about its part, what it is asked, and how long its answer may be and in
which form. -/
structure Template where
  system : String
  user : String
  maxTokens : Nat
  format : Llm.Format := .jsonObject
deriving DecidableEq, Repr

/-- What every statement has to obey. -/
def rules : String :=
  "Rules:\n" ++
  "- Only SELECT queries; no CTEs, DDL, DML, temp tables, functions that mutate state.\n" ++
  "- Use only the provided schemas, tables and columns.\n" ++
  "- Prefer explicit table-qualified names schema.table.column.\n" ++
  "- Use INNER/LEFT JOINs only on provided foreign keys, with alias-qualified columns on " ++
  "both sides.\n" ++
  "- Always include a LIMIT clause if not present.\n" ++
  "- Never guess columns or tables not listed.\n" ++
  "- Return ONLY a compact JSON object of shape \x7b \"sql\": \"...\" \x7d with no extra " ++
  "text."

/-- The question becomes a statement. -/
def generate : Template where
  system :=
    "You are a cautious SQL assistant.\n" ++
    "Task: generate a single safe SELECT-only SQL query for a BI question.\n" ++
    "\x7b\x7brules\x7d\x7d"
  user :=
    "Question: \x7b\x7bprompt\x7d\x7d\n" ++
    "\n" ++
    "Available schemas/tables/columns:\n" ++
    "\x7b\x7bmetadata\x7d\x7d\n" ++
    "\n" ++
    "Foreign keys:\n" ++
    "\x7b\x7bforeignKeys\x7d\x7d\n" ++
    "\n" ++
    "Output JSON strictly as \x7b\"sql\":\"...\"\x7d."
  maxTokens := 1024

/-- A statement that was refused or failed becomes a better one. -/
def repair : Template where
  system :=
    "You are a cautious SQL assistant fixing a query that was rejected or failed.\n" ++
    "Task: return a corrected single SELECT-only SQL query that answers the same question.\n" ++
    "\x7b\x7brules\x7d\x7d"
  user :=
    "Question: \x7b\x7bprompt\x7d\x7d\n" ++
    "\n" ++
    "Previous SQL:\n" ++
    "\x7b\x7bpreviousSql\x7d\x7d\n" ++
    "\n" ++
    "Error:\n" ++
    "\x7b\x7bdbError\x7d\x7d\n" ++
    "\n" ++
    "Available schemas/tables/columns:\n" ++
    "\x7b\x7bmetadata\x7d\x7d\n" ++
    "\n" ++
    "Foreign keys:\n" ++
    "\x7b\x7bforeignKeys\x7d\x7d\n" ++
    "\n" ++
    "Output JSON strictly as \x7b\"sql\":\"...\"\x7d."
  maxTokens := 1024

/-- Rows become a few lines of text. -/
def summary : Template where
  system :=
    "You are a formatter.\n" ++
    "Given rows (JSON array of objects) from a BI query, produce a short human-friendly " ++
    "summary in the language of the data.\n" ++
    "Rules:\n" ++
    "- Return plain text only, 3-6 concise lines.\n" ++
    "- Use readable formatting for numbers and currencies if present.\n" ++
    "- Do not fabricate values; only summarize given rows."
  user :=
    "Rows (JSON):\n" ++
    "\x7b\x7brows\x7d\x7d\n" ++
    "\n" ++
    "Write the summary text only."
  maxTokens := 512
  format := .text

/-- Rows become the description of a graph. -/
def graph : Template where
  system :=
    "You are a data viz planner.\n" ++
    "Given tabular rows (JSON array of objects), propose a compact graph configuration " ++
    "JSON for a dashboard.\n" ++
    "Rules:\n" ++
    "- Choose one of graph types: BAR_CHART | LINE_CHART | PIE_CHART | SCATTER_PLOT | " ++
    "AREA_CHART | HISTOGRAM | BOX_PLOT | HEATMAP | GEOGRAPHIC_MAP | RADAR_CHART | " ++
    "BUBBLE_CHART | FUNNEL_CHART | TREE_MAP.\n" ++
    "- Include fields: \x7b \"type\": GRAPH_TYPE, \"x\": string, \"y\": string | string[], " ++
    "\"seriesBy\"?: string \x7d.\n" ++
    "- Pick fields that exist in rows.\n" ++
    "- Keep it minimal and valid JSON. Return ONLY the JSON object."
  user :=
    "Rows (JSON):\n" ++
    "\x7b\x7brows\x7d\x7d"
  maxTokens := 512

/-- A table and its columns get names for readers. -/
def names : Template where
  system :=
    "You are a precise data modeling assistant.\n" ++
    "Given a database table (schema + technical name) and its columns (technical names, " ++
    "data types, and key flags), propose business-friendly names and a concise description " ++
    "for the table and each column.\n" ++
    "Rules:\n" ++
    "- Keep names short (1-4 words), readable and domain-neutral unless obvious from names.\n" ++
    "- Respect language cues from technical names; otherwise prefer English.\n" ++
    "- Do not invent fields; only rename provided ones.\n" ++
    "- Avoid acronyms unless clearly standard (e.g., ID, VAT).\n" ++
    "- Output strictly a JSON object with shape:\n" ++
    "\x7b\n" ++
    "  \"table\": \x7b \"businessName\": string, \"description\": string \x7d,\n" ++
    "  \"columns\": [ \x7b \"columnName\": string, \"businessName\": string, " ++
    "\"description\": string \x7d ]\n" ++
    "\x7d"
  user :=
    "Table: \x7b\x7bschema\x7d\x7d.\x7b\x7btable\x7d\x7d\n" ++
    "Columns:\n" ++
    "\x7b\x7bcolumns\x7d\x7d\n" ++
    "\n" ++
    "Return ONLY the JSON object."
  maxTokens := 1024

/-- The template under a key. -/
def template (key : String) : Except Error Template :=
  if key == "sql-generate" then .ok generate
  else if key == "sql-repair" then .ok repair
  else if key == "result-text" then .ok summary
  else if key == "graph-config" then .ok graph
  else if key == "business-names" then .ok names
  else .error (.config ("No prompt template for key \"" ++ key ++ "\""))

/-- The place of a name in a template. -/
def place (name : String) : String := "\x7b\x7b" ++ name ++ "\x7d\x7d"

/-- Fills the places of some names, one name after the other. -/
def fill (template : String) (values : List (String × String)) : String :=
  .ofList (values.foldl
    (fun text (name, value) => Text.replaceAll (place name).toList value.toList text)
    template.toList)

end Querent.Prompt
