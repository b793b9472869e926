import Querent.Proofs.Guard.JoinVerdict
import Querent.Proofs.Sql.QuotedItems

/-! Which tables of a FROM list with quoted names the guard sees. A reserved word in quotes is taken for
the word of the language, and a FROM inside quotes for the word that opens a clause. -/
namespace Querent.Guard

open Text Sql

/-- The tables of a list are those of its items up to the first that is not read: one that opens with
a bare ONLY, or whose table has no schema and a reserved word for its name. Where no quoted name holds a
FROM or a JOIN before white space there are no others. Then each item has its table under the names
written exactly if all are read and no alias is a reserved word, unless it is the name of its table, and
the schemas of the items that are read are all that a list of allowed schemas is asked for. -/
theorem listed_tables (d : Dialect) (allowed : Option (List String)) (is : List ListItem) :
    let found := tables d (selectAll is)
    let read := is.takeWhile (·.isRead)
    read.map (·.seen d) <+: found ∧
      ((∀ i ∈ is, ∀ n ∈ i.names, Quiet n.name) →
        found = read.map (·.seen d) ∧
        (found = is.map (·.ref d) ↔ ∀ i ∈ is, i.isRead = true ∧
          ∀ a ∈ i.calledAs, isReserved a.name = true → a.name = i.table.name) ∧
        (checkSchemas allowed found = .ok () ↔
          ∀ i ∈ read, ∀ s ∈ (i.ref d).schema, SchemaAllowed allowed s)) := by
  intro found read
  obtain ⟨inner, hfound, hinner⟩ := tables_selectAll d is
  have hstart : read.map (·.seen d) <+: found := ⟨inner, hfound.symm⟩
  refine ⟨hstart, fun hquiet => ?_⟩
  have hread : found = read.map (·.seen d) := by
    rw [hinner hquiet, List.append_nil] at hfound
    exact hfound
  refine ⟨hread, ?_, ?_⟩
  · rw [hread]
    constructor
    · intro h
      have hlength : read.length = is.length := by simpa using congrArg List.length h
      have hall : read = is := (List.takeWhile_prefix _).eq_of_length hlength
      rw [hall, List.map_inj_left] at h
      exact fun i hi => ⟨List.takeWhile_eq_self_iff.1 hall i hi, i.seen_eq_ref_iff.1 (h i hi)⟩
    · intro h
      have hall : read = is := List.takeWhile_eq_self_iff.2 fun i hi => (h i hi).1
      rw [hall]
      exact List.map_congr_left fun i hi => i.seen_eq_ref_iff.2 (h i hi).2
  · rw [hread, checkSchemas_eq_ok, List.forall_mem_map]
    exact Iff.rfl

/-- A name in double quotes. -/
def inQuotes (name : String) (ne_nil : name.toList ≠ [] := by decide)
    (free : (name.toList.all fun c => !isNameQuote c) = true := by decide) : ListName :=
  .quoted '"' name.toList (by decide) ne_nil free

/-- Reserved words in quotes behind a schema, and an alias that is the table's name. -/
def salesItems : List ListItem :=
  [⟨some (inQuotes "sales"), inQuotes "order", some (.bare 'o' [] (by decide) (by decide) (by decide))⟩,
    ⟨none, .quoted '`' "daily, totals".toList (by decide) (by decide) (by decide), none⟩,
    ⟨some (inQuotes "sales"), inQuotes "left", some (inQuotes "left")⟩]

theorem quiet_salesItems : ∀ i ∈ salesItems, ∀ n ∈ i.names, Quiet n.name := by
  have hwords : ∀ i ∈ salesItems, ∀ n ∈ i.names, ∀ w ∈ words n.name, namesTables w = false := by
    decide +kernel
  exact fun i hi n hn => .of_words (hwords i hi n hn)

/-- All of them are read as they are written. -/
theorem listed_tables_sales :
    (∀ i ∈ salesItems, ∀ n ∈ i.names, Quiet n.name) ∧
      String.ofList (selectAll salesItems) =
        "SELECT * FROM \"sales\".\"order\" AS o, `daily, totals`, \"sales\".\"left\" AS \"left\"" ∧
      tables .mysql (selectAll salesItems) =
        [⟨some "sales", "order", "o"⟩, ⟨none, "daily, totals", "daily, totals"⟩,
          ⟨some "sales", "left", "left"⟩] := by
  refine ⟨quiet_salesItems, by decide +kernel, ?_⟩
  obtain ⟨-, hquiet⟩ := listed_tables .mysql none salesItems
  obtain ⟨-, hrefs, -⟩ := hquiet quiet_salesItems
  rw [hrefs.2 (by decide +kernel)]
  decide +kernel

/-- A table called by a reserved word in quotes hides itself and the rest of the list from the guard,
an alias of that kind is lost, and a name that holds a FROM brings in a table that no item names. -/
theorem listed_tables_overlooked :
    let secret : ListName := .bare 's' "ecret".toList (by decide) (by decide) (by decide)
    let payroll : ListName := .bare 'p' "ayroll".toList (by decide) (by decide) (by decide)
    let items : List ListItem := [⟨none, inQuotes "order", none⟩, ⟨some secret, payroll, none⟩]
    let sql := "SELECT * FROM \"order\", secret.payroll"
    sql.toList = selectAll items ∧
      items.map (·.ref .postgres) =
        [⟨some "public", "order", "order"⟩, ⟨some "secret", "payroll", "payroll"⟩] ∧
      tables .postgres sql.toList = [] ∧
      validate [] ⟨.postgres, some ["sales"], 101, true⟩ sql = .ok (sql ++ " LIMIT 101") ∧
      tables .postgres (selectAll [⟨none, payroll, some (inQuotes "left")⟩]) =
        [⟨some "public", "payroll", "payroll"⟩] ∧
      tables .postgres (selectAll [⟨none, inQuotes "rows from payroll", none⟩]) =
        [⟨some "public", "rows from payroll", "rows from payroll"⟩,
          ⟨some "public", "payroll", "payroll"⟩] := by
  have hok : validate [] ⟨.postgres, some ["sales"], 101, true⟩
      "SELECT * FROM \"order\", secret.payroll" =
        .ok "SELECT * FROM \"order\", secret.payroll LIMIT 101" :=
    eq_ok_of_toOption (by decide +kernel)
  exact ⟨by decide +kernel, by decide +kernel, by decide +kernel, hok, by decide +kernel,
    by decide +kernel⟩

end Querent.Guard
