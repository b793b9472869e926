import Querent.Proofs.Catalog.Server
import Querent.Proofs.Command.Renaming

/-! What the statements that keep names leave: a catalogue of the tables and columns that are stored is
then what is loaded. -/
namespace Querent

/-! ### Names aside -/

def Column.unnamed (c : Column) : Column := { c with businessName := none, description := none }

def Table.unnamed (t : Table) : Table :=
  { t with businessName := none, description := none, columns := t.columns.map (·.unnamed) }

/-- A snapshot without its business names and descriptions. -/
def Snapshot.unnamed (x : Snapshot) : Snapshot := { x with tables := x.tables.map (·.unnamed) }

section Lists

variable {α β γ : Type} {f : α → γ} {g : β → γ} {l : List α} {l' : List β}

theorem map_eq_of_forall₂ {R : α → β → Prop} (hR : ∀ a b, R a b → g b = f a)
    (h : List.Forall₂ R l l') : l'.map g = l.map f := by
  induction h with
  | nil => rfl
  | cons hfirst _ ih => rw [List.map_cons, List.map_cons, hR _ _ hfirst, ih]

theorem forall₂_of_map_eq (h : l'.map g = l.map f) :
    List.Forall₂ (fun a b => a ∈ l ∧ b ∈ l' ∧ g b = f a) l l' := by
  induction l generalizing l' with
  | nil =>
    obtain rfl : l' = [] := List.map_eq_nil_iff.1 h
    exact .nil
  | cons a l ih =>
    obtain ⟨b, rest, rfl, hfirst, hrest⟩ := List.map_eq_cons_iff.1 h
    refine .cons ⟨List.mem_cons_self, List.mem_cons_self, hfirst⟩ ((ih hrest).imp ?_)
    rintro a' b' ⟨ha', hb', heq⟩
    exact ⟨List.mem_cons_of_mem _ ha', List.mem_cons_of_mem _ hb', heq⟩

end Lists

theorem Column.Renamed.unnamed_eq {c c' : Column} (h : c.Renamed c') : c'.unnamed = c.unnamed := by
  rw [Column.unnamed, Column.unnamed, h.name, h.dataType, h.isNullable, h.isPrimaryKey]

theorem Table.Renamed.unnamed_eq {t t' : Table} (h : t.Renamed t') : t'.unnamed = t.unnamed := by
  have hcolumns : t'.columns.map (·.unnamed) = t.columns.map (·.unnamed) :=
    map_eq_of_forall₂ (fun _ _ h => h.unnamed_eq) h.columns
  rw [Table.unnamed, Table.unnamed, h.schema, h.name, hcolumns]

theorem Snapshot.Renamed.unnamed_eq {x x' : Snapshot} (h : x.Renamed x') :
    x'.unnamed = x.unnamed := by
  have htables : x'.tables.map (·.unnamed) = x.tables.map (·.unnamed) :=
    map_eq_of_forall₂ (fun _ _ h => h.unnamed_eq) h.tables
  rw [Snapshot.unnamed, Snapshot.unnamed, h.workspace, h.foreignKeys, htables]

/-- A column with the names of another that is the same otherwise. -/
theorem Column.renamed_eq {c c' : Column} (h : c.unnamed = c'.unnamed) :
    { c with businessName := c'.businessName, description := c'.description } = c' := by
  cases c
  cases c'
  simpa [Column.unnamed] using h

namespace Catalog

/-! ### The rows after some statements -/

namespace Statement

/-- What a statement makes of a row of the table of tables. -/
def onTable : Statement → TableRow → TableRow
  | nameTable w t, r =>
    if r.workspace = w ∧ r.schema = t.schema ∧ r.name = t.name then
      { r with businessName := t.businessName, description := t.description }
    else r
  | _, r => r

/-- What a statement makes of a row of the table of columns. -/
def onColumn (tables : List TableRow) : Statement → ColumnRow → ColumnRow
  | nameColumn w t c, r =>
    if r.column.name = c.name ∧ ∃ owner ∈ tables, owner.id = r.table ∧
        owner.workspace = w ∧ owner.schema = t.schema ∧ owner.name = t.name then
      { r with
        column := { r.column with businessName := c.businessName, description := c.description } }
    else r
  | _, r => r

def applied (s : Stored) (c : Statement) : Stored :=
  { s with tables := s.tables.map c.onTable, columns := s.columns.map (c.onColumn s.tables) }

theorem applied_nameTable (s : Stored) (w : Int) (t : Querent.Table) :
    applied s (nameTable w t) = s.nameTable w t := by
  rw [applied, Stored.nameTable]
  congr 1
  exact List.map_id s.columns

theorem applied_nameColumn (s : Stored) (w : Int) (t : Querent.Table) (c : Querent.Column) :
    applied s (nameColumn w t c) = s.nameColumn w t c := by
  rw [applied, Stored.nameColumn]
  congr 1
  exact List.map_id s.tables

end Statement

/-- A row of the table of tables without the names. -/
def TableRow.unnamed (r : TableRow) : TableRow := { r with businessName := none, description := none }

theorem TableRow.key_eq {r r' : TableRow} (h : r.unnamed = r'.unnamed) :
    r.id = r'.id ∧ r.workspace = r'.workspace ∧ r.schema = r'.schema ∧ r.name = r'.name := by
  simp only [unnamed, TableRow.mk.injEq] at h
  obtain ⟨hid, hworkspace, hschema, hname, -⟩ := h
  exact ⟨hid, hworkspace, hschema, hname⟩

theorem Statement.unnamed_onTable (c : Statement) (r : TableRow) :
    (c.onTable r).unnamed = r.unnamed := by
  cases c with
  | nameTable w t =>
    rw [onTable]
    split <;> rfl
  | _ => rfl

theorem Statement.key_onColumn (tables : List TableRow) (c : Statement) (r : ColumnRow) :
    (c.onColumn tables r).id = r.id ∧ (c.onColumn tables r).table = r.table ∧
      (c.onColumn tables r).column.name = r.column.name := by
  cases c with
  | nameColumn w t c =>
    rw [onColumn]
    split <;> exact ⟨rfl, rfl, rfl⟩
  | _ => exact ⟨rfl, rfl, rfl⟩

/-- Which columns a statement names does not turn on the names of the tables. -/
theorem Statement.onColumn_map {tables : List TableRow} {f : TableRow → TableRow}
    (hf : ∀ r, (f r).unnamed = r.unnamed) (c : Statement) :
    c.onColumn (tables.map f) = c.onColumn tables := by
  funext r
  cases c with
  | nameColumn w t c =>
    have howner : (∃ owner ∈ tables.map f, owner.id = r.table ∧ owner.workspace = w ∧
        owner.schema = t.schema ∧ owner.name = t.name) ↔
        ∃ owner ∈ tables, owner.id = r.table ∧ owner.workspace = w ∧
          owner.schema = t.schema ∧ owner.name = t.name := by
      simp only [List.mem_map, exists_exists_and_eq_and]
      refine exists_congr fun owner => and_congr_right fun _ => ?_
      obtain ⟨hid, hworkspace, hschema, hname⟩ := TableRow.key_eq (hf owner)
      rw [hid, hworkspace, hschema, hname]
    simp only [onColumn, howner]
  | _ => rfl

/-- What some statements make of a row, one after the other. -/
def onTableAll (cs : List Statement) (r : TableRow) : TableRow := cs.foldl (fun r c => c.onTable r) r

def onColumnAll (tables : List TableRow) (cs : List Statement) (r : ColumnRow) : ColumnRow :=
  cs.foldl (fun r c => c.onColumn tables r) r

theorem unnamed_onTableAll (cs : List Statement) (r : TableRow) :
    (onTableAll cs r).unnamed = r.unnamed := by
  induction cs generalizing r with
  | nil => rfl
  | cons c cs ih => exact (ih _).trans (c.unnamed_onTable r)

theorem key_onColumnAll (tables : List TableRow) (cs : List Statement) (r : ColumnRow) :
    (onColumnAll tables cs r).id = r.id ∧ (onColumnAll tables cs r).table = r.table ∧
      (onColumnAll tables cs r).column.name = r.column.name := by
  induction cs generalizing r with
  | nil => exact ⟨rfl, rfl, rfl⟩
  | cons c cs ih =>
    obtain ⟨hid, htable, hname⟩ := c.key_onColumn tables r
    obtain ⟨hid', htable', hname'⟩ := ih (c.onColumn tables r)
    exact ⟨hid'.trans hid, htable'.trans htable, hname'.trans hname⟩

/-- The rows after the statements that keep the names of a catalogue. -/
def Stored.saved (s : Stored) (x : Snapshot) : Stored := (naming x).foldl Statement.applied s

/-- Every row is changed by itself. -/
theorem foldl_applied (cs : List Statement) (s : Stored) :
    cs.foldl Statement.applied s =
      { s with tables := s.tables.map (onTableAll cs)
               columns := s.columns.map (onColumnAll s.tables cs) } := by
  induction cs generalizing s with
  | nil =>
    have htables : s.tables.map (onTableAll []) = s.tables := List.map_id s.tables
    have hcolumns : s.columns.map (onColumnAll s.tables []) = s.columns := List.map_id s.columns
    rw [htables, hcolumns]
    rfl
  | cons c cs ih =>
    have hcolumn : onColumnAll (s.tables.map c.onTable) cs = onColumnAll s.tables cs := by
      funext r
      simp only [onColumnAll, Statement.onColumn_map c.unnamed_onTable]
    rw [List.foldl_cons, ih, Statement.applied]
    simp only [hcolumn, List.map_map]
    rfl

/-! ### One row -/

/-- Writes that all leave the same of what they change leave it. -/
theorem foldl_settles {α β : Type} {f : α → β → α} {a a' : α} {l : List β}
    (hsome : ∃ b ∈ l, f a b = a') (h : ∀ b ∈ l, f a b = a ∨ f a b = a')
    (hstay : ∀ b ∈ l, f a' b = a') : l.foldl f a = a' := by
  induction l with
  | nil =>
    obtain ⟨b, hb, -⟩ := hsome
    cases hb
  | cons b l ih =>
    obtain ⟨hfirst, hrest⟩ := List.forall_mem_cons.1 h
    obtain ⟨-, hkeep⟩ := List.forall_mem_cons.1 hstay
    rw [List.foldl_cons]
    have hdone : l.foldl f a' = a' := by
      clear ih hsome h hrest hstay
      induction l with
      | nil => rfl
      | cons c l ih =>
        obtain ⟨hc, hl⟩ := List.forall_mem_cons.1 hkeep
        rw [List.foldl_cons, hc, ih hl]
    by_cases hchanged : f a b = a'
    · rw [hchanged, hdone]
    · rw [hfirst.resolve_right hchanged]
      refine ih ?_ hrest hkeep
      obtain ⟨c, hc, hcs⟩ := hsome
      rcases List.mem_cons.1 hc with rfl | hc
      · exact absurd hcs hchanged
      · exact ⟨c, hc, hcs⟩

theorem mem_naming {x : Snapshot} {c : Statement} (h : c ∈ naming x) :
    (∃ t ∈ x.tables, c = .nameTable x.workspace t) ∨
      ∃ t ∈ x.tables, ∃ column ∈ t.columns, c = .nameColumn x.workspace t column := by
  obtain ⟨t, ht, hc⟩ := List.mem_flatMap.1 h
  rcases List.mem_cons.1 hc with rfl | hc
  · exact .inl ⟨t, ht, rfl⟩
  · obtain ⟨column, hcolumn, rfl⟩ := List.mem_map.1 hc
    exact .inr ⟨t, ht, column, hcolumn, rfl⟩

/-- A catalogue has the tables and columns that are stored of its workspace. -/
def Stored.Has (s : Stored) (x : Snapshot) : Prop := x.unnamed = (s.snapshot x.workspace).unnamed

section Row

variable {s : Stored} {x : Snapshot} {r : TableRow} {t : Querent.Table} {k : ColumnRow}
  {c : Querent.Column}

/-- A table of a catalogue and its row. -/
structure Stored.Paired (s : Stored) (x : Snapshot) (r : TableRow) (t : Querent.Table) : Prop where
  row : r ∈ s.tables
  workspace : r.workspace = x.workspace
  table : t ∈ x.tables
  schema : t.schema = r.schema
  name : t.name = r.name
  columns : t.columns.map (·.unnamed) = (s.columnsOf r.id).map (·.column.unnamed)

/-- The tables of a catalogue go by the names of their rows, one after the other. -/
theorem Stored.Has.paired (h : s.Has x) :
    List.Forall₂ (s.Paired x) (s.tablesOf x.workspace) x.tables := by
  have htables : x.tables.map (·.unnamed) =
      (s.tablesOf x.workspace).map fun r => (r.table ((s.columnsOf r.id).map (·.column))).unnamed := by
    have hboth : x.tables.map (·.unnamed) = (s.snapshot x.workspace).tables.map (·.unnamed) :=
      congrArg Snapshot.tables h
    rw [hboth, Stored.snapshot, List.map_map]
    rfl
  refine (forall₂_of_map_eq htables).imp ?_
  rintro r t ⟨hr, ht, hsame⟩
  obtain ⟨hrow, hworkspace⟩ := Stored.mem_tablesOf.1 hr
  simp only [Table.unnamed, TableRow.table, List.map_map, Table.mk.injEq] at hsame
  obtain ⟨hschema, hname, -, -, hcolumns⟩ := hsame
  exact ⟨hrow, hworkspace, ht, hschema, hname, hcolumns⟩

theorem Stored.Allowed.eq_of_name {r' : TableRow} (hs : s.Allowed) (hr : r ∈ s.tables)
    (hr' : r' ∈ s.tables) (hworkspace : r.workspace = r'.workspace) (hschema : r.schema = r'.schema)
    (hname : r.name = r'.name) : r = r' :=
  List.inj_on_of_nodup_map hs.tableNames hr hr' (by rw [hworkspace, hschema, hname])

theorem Stored.mem_columnsOf {id : Int} : k ∈ s.columnsOf id ↔ k ∈ s.columns ∧ k.table = id := by
  rw [Stored.columnsOf, mem_sortedBy, List.mem_filter, beq_iff_eq]

/-- A name belongs to one table of a catalogue. -/
theorem Stored.Has.eq_of_name (h : s.Has x) (hs : s.Allowed) {t' : Querent.Table}
    (ht : t ∈ x.tables) (ht' : t' ∈ x.tables) (hschema : t.schema = t'.schema)
    (hname : t.name = t'.name) : t = t' := by
  have hkeys : x.tables.map (fun t => (t.schema, t.name)) =
      (s.tablesOf x.workspace).map fun r => (r.schema, r.name) :=
    map_eq_of_forall₂ (fun r t hp => by rw [hp.schema, hp.name]) h.paired
  have hrows : (s.tablesOf x.workspace).Nodup :=
    (sortedBy_perm _ _).nodup_iff.2 ((List.Nodup.of_map _ hs.tableIds).filter _)
  have hnodup : (x.tables.map fun t => (t.schema, t.name)).Nodup := by
    rw [hkeys]
    refine List.Nodup.map_on (fun r hr r' hr' hsame => ?_) hrows
    obtain ⟨hr, hw⟩ := Stored.mem_tablesOf.1 hr
    obtain ⟨hr', hw'⟩ := Stored.mem_tablesOf.1 hr'
    obtain ⟨hschema, hname⟩ := Prod.mk.inj hsame
    exact hs.eq_of_name hr hr' (hw.trans hw'.symm) hschema hname
  exact List.inj_on_of_nodup_map hnodup ht ht' (by rw [hschema, hname])

/-- A name belongs to one column of a table. -/
theorem Stored.Paired.eq_of_name (hp : s.Paired x r t) (hs : s.Allowed) {c' : Querent.Column}
    (hc : c ∈ t.columns) (hc' : c' ∈ t.columns) (hname : c.name = c'.name) : c = c' := by
  have hnames : t.columns.map (·.name) = (s.columnsOf r.id).map (·.column.name) := by
    have hboth := congrArg (List.map Querent.Column.name) hp.columns
    simpa only [List.map_map, Function.comp_def, Querent.Column.unnamed] using hboth
  have hrows : (s.columnsOf r.id).Nodup :=
    (sortedBy_perm _ _).nodup_iff.2 ((List.Nodup.of_map _ hs.columnIds).filter _)
  have hnodup : (t.columns.map (·.name)).Nodup := by
    rw [hnames]
    refine List.Nodup.map_on (fun k hk k' hk' hsame => ?_) hrows
    obtain ⟨hk, htable⟩ := Stored.mem_columnsOf.1 hk
    obtain ⟨hk', htable'⟩ := Stored.mem_columnsOf.1 hk'
    exact List.inj_on_of_nodup_map hs.columnNames hk hk' (by rw [htable, htable', hsame])
  exact List.inj_on_of_nodup_map hnodup hc hc' hname

/-- The statements that keep a catalogue name a row after its table. -/
theorem Stored.Paired.onTableAll_eq (hp : s.Paired x r t) (hs : s.Allowed) (h : s.Has x) :
    onTableAll (naming x) r =
      { r with businessName := t.businessName, description := t.description } := by
  have hhit {t' : Querent.Table} (ht' : t' ∈ x.tables) :
      (r.workspace = x.workspace ∧ r.schema = t'.schema ∧ r.name = t'.name) ↔ t' = t := by
    constructor
    · rintro ⟨-, hschema, hname⟩
      exact h.eq_of_name hs ht' hp.table (hschema.symm.trans hp.schema.symm)
        (hname.symm.trans hp.name.symm)
    · rintro rfl
      exact ⟨hp.workspace, hp.schema.symm, hp.name.symm⟩
  refine foldl_settles ⟨.nameTable x.workspace t, ?_, ?_⟩ (fun c hc => ?_) fun c hc => ?_
  · exact List.mem_flatMap.2 ⟨t, hp.table, List.mem_cons_self⟩
  · exact if_pos ((hhit hp.table).2 rfl)
  · rcases mem_naming hc with ⟨t', ht', rfl⟩ | ⟨t', ht', c', hc', rfl⟩
    · by_cases heq : t' = t
      · exact .inr ((if_pos ((hhit ht').2 heq)).trans (by rw [heq]))
      · exact .inl (if_neg fun hsame => heq ((hhit ht').1 hsame))
    · exact .inl rfl
  · rcases mem_naming hc with ⟨t', ht', rfl⟩ | ⟨t', ht', c', hc', rfl⟩
    · by_cases heq : t' = t
      · exact (if_pos ((hhit ht').2 heq)).trans (by rw [heq])
      · exact if_neg fun hsame => heq ((hhit ht').1 hsame)
    · rfl

/-- The statements that keep a catalogue name the row of a column after it. -/
theorem Stored.Paired.onColumnAll_eq (hp : s.Paired x r t) (hs : s.Allowed) (h : s.Has x)
    (hk : k ∈ s.columnsOf r.id) (hc : c ∈ t.columns) (hkc : c.unnamed = k.column.unnamed) :
    onColumnAll s.tables (naming x) k = { k with column := c } := by
  have hname : c.name = k.column.name := by
    have hunnamed : c.unnamed.name = k.column.unnamed.name := congrArg _ hkc
    exact hunnamed
  have hhit {t' : Querent.Table} {c' : Querent.Column} (ht' : t' ∈ x.tables) (hc' : c' ∈ t'.columns) :
      (k.column.name = c'.name ∧ ∃ owner ∈ s.tables, owner.id = k.table ∧
        owner.workspace = x.workspace ∧ owner.schema = t'.schema ∧ owner.name = t'.name) ↔
      t' = t ∧ c' = c := by
    have htable : k.table = r.id := (Stored.mem_columnsOf.1 hk).2
    constructor
    · rintro ⟨hkname, owner, howner, hid, -, hschema, htname⟩
      obtain rfl : owner = r := hs.eq_of_id howner hp.row (hid.trans htable)
      obtain rfl : t' = t := h.eq_of_name hs ht' hp.table (hschema.symm.trans hp.schema.symm)
        (htname.symm.trans hp.name.symm)
      exact ⟨rfl, hp.eq_of_name hs hc' hc (hkname.symm.trans hname.symm)⟩
    · rintro ⟨rfl, rfl⟩
      exact ⟨hname.symm, r, hp.row, htable.symm, hp.workspace, hp.schema.symm, hp.name.symm⟩
  have hset : { k with column := { k.column with
      businessName := c.businessName, description := c.description } } =
      { k with column := c } := by
    rw [Column.renamed_eq hkc.symm]
  refine foldl_settles ⟨.nameColumn x.workspace t c, ?_, ?_⟩ (fun b hb => ?_) fun b hb => ?_
  · exact List.mem_flatMap.2 ⟨t, hp.table, List.mem_cons_of_mem _ (List.mem_map_of_mem hc)⟩
  · exact (if_pos ((hhit hp.table hc).2 ⟨rfl, rfl⟩)).trans hset
  · rcases mem_naming hb with ⟨t', ht', rfl⟩ | ⟨t', ht', c', hc', rfl⟩
    · exact .inl rfl
    · by_cases heq : t' = t ∧ c' = c
      · obtain ⟨rfl, rfl⟩ := heq
        exact .inr ((if_pos ((hhit ht' hc').2 ⟨rfl, rfl⟩)).trans hset)
      · exact .inl (if_neg fun hsame => heq ((hhit ht' hc').1 hsame))
  · rcases mem_naming hb with ⟨t', ht', rfl⟩ | ⟨t', ht', c', hc', rfl⟩
    · rfl
    · rw [← hname] at hhit
      by_cases heq : t' = t ∧ c' = c
      · obtain ⟨rfl, rfl⟩ := heq
        exact if_pos ((hhit ht' hc').2 ⟨rfl, rfl⟩)
      · exact if_neg fun hsame => heq ((hhit ht' hc').1 hsame)

end Row

/-! ### All rows -/

namespace Stored

variable {s : Stored} {x : Snapshot} {w : Int}

theorem saved_eq (s : Stored) (x : Snapshot) : s.saved x =
    { s with tables := s.tables.map (onTableAll (naming x))
             columns := s.columns.map (onColumnAll s.tables (naming x)) } := foldl_applied _ _

theorem tablesOf_saved (s : Stored) (x : Snapshot) (w : Int) :
    (s.saved x).tablesOf w = (s.tablesOf w).map (onTableAll (naming x)) := by
  have hkey (r : TableRow) := TableRow.key_eq (unnamed_onTableAll (naming x) r)
  rw [saved_eq, tablesOf, List.filter_map, sortedBy_map]
  simp only [Function.comp_def, hkey]
  rfl

theorem columnsOf_saved (s : Stored) (x : Snapshot) (id : Int) :
    (s.saved x).columnsOf id =
      (s.columnsOf id).map (onColumnAll s.tables (naming x)) := by
  have hkey (r : ColumnRow) := key_onColumnAll s.tables (naming x) r
  rw [saved_eq, columnsOf, List.filter_map, sortedBy_map]
  simp only [Function.comp_def, hkey]
  rfl

theorem keysOf_saved (s : Stored) (x : Snapshot) (w : Int) :
    ((s.saved x).keysOf w).map (·.foreignKey) = (s.keysOf w).map (·.foreignKey) := by
  let renamed (j : JoinedKey) : JoinedKey :=
    { j with source := onTableAll (naming x) j.source, target := onTableAll (naming x) j.target }
  have hkey (r : TableRow) := TableRow.key_eq (unnamed_onTableAll (naming x) r)
  have hjoined : (s.saved x).joinedKeys = s.joinedKeys.map renamed := by
    simp only [saved_eq, joinedKeys, List.filter_map, List.flatMap_map, List.map_flatMap,
      List.map_map, Function.comp_def, hkey, renamed]
  have hsame (j : JoinedKey) : (renamed j).foreignKey = j.foreignKey := by
    simp only [JoinedKey.foreignKey, renamed, hkey]
  rw [keysOf, hjoined, List.filter_map, sortedBy_map, List.map_map]
  simp only [Function.comp_def, hsame]
  simp only [renamed, hkey]
  rfl

/-- Where a catalogue is kept, it is what is loaded. -/
theorem Has.snapshot_saved (h : s.Has x) (hs : s.Allowed) : (s.saved x).snapshot x.workspace = x := by
  have htables : (((s.saved x).tablesOf x.workspace).map fun r =>
      r.table (((s.saved x).columnsOf r.id).map (·.column))) = x.tables := by
    rw [tablesOf_saved, List.map_map]
    refine (map_eq_of_forall₂ (g := id) (fun r t hp => ?_) h.paired).symm.trans (List.map_id _)
    have hcolumns : (((s.saved x).columnsOf r.id).map (·.column)) = t.columns := by
      rw [columnsOf_saved, List.map_map]
      refine (map_eq_of_forall₂ (g := id) (fun k c hkc => ?_)
        (forall₂_of_map_eq hp.columns)).symm.trans (List.map_id _)
      obtain ⟨hk, hc, hsame⟩ := hkc
      rw [Function.comp_apply, hp.onColumnAll_eq hs h hk hc hsame]
      rfl
    rw [Function.comp_apply, hp.onTableAll_eq hs h]
    show t = TableRow.table _ (((s.saved x).columnsOf r.id).map (·.column))
    rw [hcolumns, TableRow.table, ← hp.schema, ← hp.name]
  have hkeys : ((s.saved x).keysOf x.workspace).map (·.foreignKey) = x.foreignKeys := by
    rw [keysOf_saved]
    exact (congrArg Snapshot.foreignKeys h).symm
  rw [snapshot, htables, hkeys]

theorem snapshot_saved_of_unnamed {w : Int} (hw : x.workspace = w)
    (hx : x.unnamed = (s.snapshot w).unnamed) (hs : s.Allowed) : (s.saved x).snapshot w = x := by
  subst hw
  exact Has.snapshot_saved hx hs

/-- Names are no part of what the declarations of the tables restrict. -/
theorem Allowed.saved (hs : s.Allowed) (x : Snapshot) : (s.saved x).Allowed := by
  have hkey (r : TableRow) := TableRow.key_eq (unnamed_onTableAll (naming x) r)
  have hcolumn (r : ColumnRow) := key_onColumnAll s.tables (naming x) r
  have hids : (s.saved x).tables.map (·.id) = s.tables.map (·.id) := by
    simp only [saved_eq, List.map_map, Function.comp_def, hkey]
  have hworkspaces : (s.saved x).workspaces = s.workspaces := by rw [saved_eq]
  have hkeys : (s.saved x).keys = s.keys := by rw [saved_eq]
  refine ⟨hworkspaces ▸ hs.workspaceIds, ?_, ?_, ?_, ?_, ?_, ?_, hkeys ▸ hs.keyIds, ?_, ?_⟩
  · rw [hids]
    exact hs.tableIds
  · simpa only [saved_eq, List.map_map, Function.comp_def, hkey] using hs.tableNames
  · simpa only [saved_eq, List.forall_mem_map, hkey] using hs.tableWorkspaces
  · simpa only [saved_eq, List.map_map, Function.comp_def, hcolumn] using hs.columnIds
  · simpa only [saved_eq, List.map_map, Function.comp_def, hcolumn] using hs.columnNames
  · rw [hids]
    simpa only [saved_eq, List.forall_mem_map, hcolumn] using hs.columnTables
  · rw [hids, hkeys]
    exact hs.keySources
  · rw [hids, hkeys]
    exact hs.keyTargets

end Stored

/-! ### What a server is left with -/

namespace Statement

theorem sql_nameTable (w : Int) (t : Querent.Table) : (nameTable w t).sql = Server.nameTableSql := by
  have h : (nameTable 0 ⟨"", "", none, none, []⟩).sql = Server.nameTableSql := by decide +kernel
  exact h

theorem sql_nameColumn (w : Int) (t : Querent.Table) (c : Querent.Column) :
    (nameColumn w t c).sql = Server.nameColumnSql := by
  have h : (nameColumn 0 ⟨"", "", none, none, []⟩ ⟨"", "", false, false, none, none⟩).sql =
      Server.nameColumnSql := by decide +kernel
  exact h

end Statement

namespace Server

variable {σ : Type} {S : Server σ} {s : σ} {x : Snapshot}

theorem run_change (session : Nat) (c : Statement) : (change session c).run.run S.answer s =
    ((S.ask session c s).1.ended.map fun _ => (), (S.ask session c s).2) := by
  have hquery : (c.run session).run.run S.answer s =
      (.ok (S.ask session c s).1, (S.ask session c s).2) := rfl
  rw [change, Dialogue.run_bind_ok hquery]
  cases (S.ask session c s).1.ended <;> rfl

/-- A naming statement that ends well has been made. -/
theorem Runs.stored_ask (hS : S.Runs) {session : Nat} {c : Statement} (hc : c ∈ naming x) {n : Nat}
    (h : (S.ask session c s).1.ended = .ok n) :
    S.stored (S.ask session c s).2 = c.applied (S.stored s) := by
  rcases mem_naming hc with ⟨t, -, rfl⟩ | ⟨t, -, column, -, rfl⟩
  · rw [Statement.applied_nameTable]
    have hmade := hS.nameTable session s x.workspace t n
    rw [← Statement.sql_nameTable x.workspace t] at hmade
    exact hmade h
  · rw [Statement.applied_nameColumn]
    have hmade := hS.nameColumn session s x.workspace t column n
    rw [← Statement.sql_nameColumn x.workspace t column] at hmade
    exact hmade h

theorem Runs.stored_changes (hS : S.Runs) {session : Nat} {cs : List Statement}
    (hcs : ∀ c ∈ cs, c ∈ naming x) {u : Unit}
    (h : ((cs.forM (change session)).run.run S.answer s).1 = .ok u) :
    S.stored ((cs.forM (change session)).run.run S.answer s).2 =
      cs.foldl Statement.applied (S.stored s) := by
  induction cs generalizing s with
  | nil => rfl
  | cons c cs ih =>
    obtain ⟨hc, hrest⟩ := List.forall_mem_cons.1 hcs
    have hcons : (c :: cs).forM (change session) =
      change session c >>= fun _ => cs.forM (change session) := rfl
    rw [hcons] at h ⊢
    obtain ⟨u', s', hfirst, hrun⟩ := Dialogue.of_run_bind_ok h
    rw [hrun] at h ⊢
    rw [ih hrest h, List.foldl_cons]
    rw [run_change] at hfirst
    obtain ⟨hended, rfl⟩ := Prod.mk.inj hfirst
    cases hn : (S.ask session c s).1.ended with
    | error e =>
      rw [hn] at hended
      cases hended
    | ok n => rw [hS.stored_ask hc hn]

/-- Names that were saved are set as the statements read. -/
theorem Runs.save (hS : S.Runs) {session : Nat} {u : Unit}
    (h : ((saveNames session x).run.run S.answer s).1 = .ok u) :
    S.stored ((saveNames session x).run.run S.answer s).2 = (S.stored s).saved x := by
  rw [saveNames, Dialogue.run_adapt] at h ⊢
  have hok {r : Except Database.Fault Unit} {f : Database.Fault → Error} (hr : r.mapError f = .ok u) : r = .ok u := by
    cases r with
    | ok _ => rfl
    | error e => cases hr
  have hrun := hok h
  obtain ⟨u₁, s₁, hbegin, hrest⟩ := Dialogue.of_run_bind_ok hrun
  have hs₁ : S.stored s₁ = S.stored s := by
    have hkept := hS.transaction session s "BEGIN" (by simp)
    rwa [show (S.answer (.command session "BEGIN") s).2 = s₁ from congrArg Prod.snd hbegin] at hkept
  rw [hrest] at hrun
  obtain ⟨u₂, s₂, hchanges, hlast⟩ := Dialogue.of_run_bind_ok hrun
  have hs₂ : S.stored s₂ = (S.stored s₁).saved x := by
    have hmade := hS.stored_changes (fun c hc => hc) (congrArg Prod.fst hchanges)
    rwa [hchanges] at hmade
  show S.stored (Dialogue.run S.answer (ExceptT.run _) s).2 = _
  rw [hrest, hlast, ← hs₁, ← hs₂]
  exact hS.transaction session s₂ "COMMIT" (by simp)

end Server

end Catalog

end Querent
