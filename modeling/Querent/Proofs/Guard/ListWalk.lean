import Querent.Proofs.Guard.JoinVerdict
import Querent.Proofs.Sql.Walk

/-! How far the guard follows a FROM list. A word on the list's own level that is spelled like a clause
keyword ends it, be it the column of a condition or part of an index hint. -/
namespace Querent

open Text

namespace Sql

/-- From an item the walk goes to the text behind the next comma of the list's own level, unless a word
of that level before the comma is one that ends lists. In a list it comes to the items in order, each at
its place, up to the first behind which such a word stands, and goes on to nothing behind the list. So it
comes to all of them exactly if no such word stands behind any but the last. The tables of the items it
comes to are among those of the statement if the FROM opens a clause. -/
theorem walk_fromList (d : Dialect) (l : FromList) :
    (∀ text next, nextItem text = some next ↔ ∃ words s after, Stretch words s ∧
      (∀ w ∈ words, isOneOf listEnds w = false) ∧ text = s ++ ',' :: after ∧
      next = trimStart after) ∧
    places d (trimStart l.text) = l.starts.take l.reached ∧
    readItems d true (trimStart l.text) =
      (l.entries.take l.reached).filterMap (·.item.ref d) ∧
    (places d (trimStart l.text) = l.starts ↔ ∀ e ∈ l.init, e.passes = true) ∧
    ∀ before word, WholeWord before word (' ' :: l.text) → spells "FROM" word = true →
      opensClause before.reverse = true → ∀ e ∈ l.entries.take l.reached, ∀ r ∈ e.item.ref d,
        r ∈ tables d (before ++ (word ++ ' ' :: l.text)) := by
  refine ⟨fun _ _ => nextItem_eq_some, l.places_text, l.readItems_text, ?_, ?_⟩
  · rw [l.places_text]
    exact l.take_reached_starts
  · intro before word hword hspells hopens e he r hr
    have hplain : ∀ c ∈ word, isPlain c = true := isPlain_of_spells (by decide) hspells
    have hfrom : sameLetters word "FROM".toList = true := by
      rw [spells_eq_sameLetters (by decide) hplain] at hspells
      simp only [sameLetters, beq_iff_eq] at hspells ⊢
      exact hspells.symm
    have hread : r ∈ readItems d true (trimStart (' ' :: l.text)) := by
      rw [trimStart_blank, l.readItems_text]
      exact List.mem_filterMap.2 ⟨e, he, hr⟩
    exact mem_tablesFrom hword (by rw [namesTables, hspells]; rfl) rfl
      (fun _ => by simpa using hopens) (by rwa [hfrom])

/-- A join between two items, with commas and a keyword in a literal. -/
def itemsJoin : List Char :=
  " JOIN ".toList ++ '"' :: ("items".toList ++ '"' ::
    (" i ON o.id = i.order_id AND i.note <> ".toList ++ '\'' ::
      ("paid, see ORDER".toList ++ ['\''])))

theorem stretch_itemsJoin : Stretch (words " JOIN ".toList ++
    (words " i ON o.id = i.order_id AND i.note <> ".toList ++ [])) itemsJoin :=
  have hcondition : Stretch (words " i ON o.id = i.order_id AND i.note <> ".toList ++ [])
      (" i ON o.id = i.order_id AND i.note <> ".toList ++ '\'' ::
        ("paid, see ORDER".toList ++ ['\''])) :=
    .flat_append (by decide) (.quoted (by decide) (by decide) .nil) (by simp; decide)
  .flat_append (by decide) (.quoted (by decide) (by decide) hcondition) (by simp; decide)

/-- An option of a table, with its argument in parentheses. -/
def sample : List Char := " TABLESAMPLE SYSTEM ".toList ++ '(' :: ("10".toList ++ [')'])

theorem stretch_sample : Stretch (words " TABLESAMPLE SYSTEM ".toList ++ []) sample :=
  have hten : Nested "10".toList := Balanced.nested (.of_all (by decide))
  .flat_append (by decide) (.group hten .nil) (by simp; decide)

/-- `orders o JOIN "items" i ON o.id = i.order_id AND i.note <> 'paid, see ORDER', (SELECT id FROM
refunds WHERE paid) AS r, ONLY sales.lines TABLESAMPLE SYSTEM (10) WHERE o.id > 7`. -/
def salesList : FromList where
  init := [⟨[], ⟨[], .table orders none closed_none, some o⟩, itemsJoin, _, by simp, stretch_itemsJoin⟩,
    ⟨[' '], ⟨[], .group _ refunds, some r⟩, [], [], isBlank_of_mem_space, .nil⟩]
  last := ⟨[' '], ⟨[.only], .table lines none closed_none, none⟩, sample, _,
    isBlank_of_mem_space, stretch_sample⟩
  tail := [' '] ++ ("WHERE".toList ++ " o.id > 7".toList)
  ends := List.forall_mem_cons.2 ⟨⟨border_cons.2 (by decide), by show some ' ' ≠ some '('; decide⟩,
    List.forall_mem_singleton.2 ⟨border_nil, by simp⟩⟩
  lastEnds := (ItemEnd.ofKeyword (k := "TABLESAMPLE") (t := _ :: _)
    (border_cons.2 (by decide)) (by decide)).stops
  closes := .word isBlank_of_mem_space (by simp) (by decide) (by simp; decide)
where
  orders : TablePath :=
    ⟨none, .bare 'o' "rders".toList (by decide) (by decide), by decide, by decide, by decide⟩
  lines : TablePath :=
    ⟨some (.bare 's' "ales".toList (by decide) (by decide)),
      .bare 'l' "ines".toList (by decide) (by decide), by decide, by decide, by decide⟩
  o : Alias := ⟨none, .bare 'o' [] (by decide) List.all_nil, none, by simp, by decide, by decide, by decide,
    closed_none⟩
  r : Alias := ⟨some "AS".toList, .bare 'r' [] (by decide) List.all_nil, none, by simp; decide, by decide,
    by decide, by decide, closed_none⟩
  refunds : Nested "SELECT id FROM refunds WHERE paid".toList := Balanced.nested (.of_all (by decide))

/-- The walk comes to all its items. -/
theorem walk_fromList_sales :
    String.ofList salesList.text = "orders o JOIN \"items\" i ON o.id = i.order_id AND i.note <> " ++
      "'paid, see ORDER', (SELECT id FROM refunds WHERE paid) AS r, " ++
      "ONLY sales.lines TABLESAMPLE SYSTEM (10) WHERE o.id > 7" ∧
    places .postgres (trimStart salesList.text) = salesList.starts ∧
    readItems .postgres true (trimStart salesList.text) =
      [⟨some "public", "orders", "o"⟩, ⟨some "sales", "lines", "lines"⟩] := by
  obtain ⟨-, hplaces, hread, hall, -⟩ := walk_fromList .postgres salesList
  refine ⟨by decide +kernel, hall.2 (by decide +kernel), ?_⟩
  rw [hread]
  decide +kernel

end Sql

namespace Guard

open Sql

/-- A column behind a dot ends the list if it is called like a clause, so the schemas of the items that
follow are not checked. The FOR of an index hint does the same. An INTO behind a table is taken for its
alias, and the walk goes on behind it. -/
theorem list_left_early :
    let key : ForeignKey :=
      { constraint := none
        source := { schema := "public", table := "a", column := "i" }
        target := { schema := "public", table := "b", column := "i" } }
    let sql (column : String) :=
      "SELECT * FROM a JOIN b ON a.i = b.i AND a." ++ column ++ " > 0, secret.payroll"
    let hinted := "SELECT * FROM shop.a USE INDEX FOR ORDER BY (i), secret.payroll"
    validate [key] ⟨.postgres, some ["public"], 101, true⟩ (sql "rank") =
        .error (.schemaNotAllowed ["secret"]) ∧
      validate [key] ⟨.postgres, some ["public"], 101, true⟩ (sql "order") =
        .ok (sql "order" ++ " LIMIT 101") ∧
      validate [] ⟨.mysql, some ["shop"], 101, true⟩ hinted = .ok (hinted ++ " LIMIT 101") ∧
      tables .postgres "SELECT * FROM a INTO x, y".toList =
        [⟨some "public", "a", "INTO"⟩, ⟨some "public", "y", "y"⟩] := by
  refine ⟨?_, eq_ok_of_toOption (by decide +kernel), eq_ok_of_toOption (by decide +kernel),
    by decide +kernel⟩
  decide +kernel

end Guard

end Querent
