import Querent.Proofs.Query.Lists

/-! The scan for tables finds in the text of a query the tables that the query names at all of its
levels, each as often as it is named. -/
namespace Querent.Sql

open Text Query

variable {d : Dialect} {before s t : List Char} {found : List TableRef}

/-! ### Select lists -/

theorem Query.Selected.clauseLead (s : Selected) (hb : Border before) :
    ClauseLead (s.text.reverse ++ before) := by
  cases s with
  | star => exact .of_border (by decide) (by decide)
  | column c => exact c.clauseLead hb
  | call f x c =>
    have hrev : (Selected.call f x c).text.reverse ++ before =
        ')' :: ((f.name.toList ++ '(' :: (x.text ++ (" FROM ".toList ++ c.text))).reverse ++ before) := by
      simp [Selected.text]
    rw [hrev]
    exact .of_border (by decide) (by decide)

/-- No table is found in an entry of a select list: the FROM of a call is not one of a clause. -/
theorem Query.Selected.finds (s : Selected) (hplace : ClausePlace before) (hb : Border before)
    (ht : Border t) : Finds d before s.text t [] := by
  cases s with
  | star => exact .flat (by decide) (by decide) ht
  | column c => exact (c.lacks listWords_subset).finds ht
  | call f x c =>
    have hname : Lacks listWords f.name.toList := by cases f <;> decide
    have hplain : ∀ c ∈ f.name.toList, isPlain c = true :=
      List.all_eq_true.1 (by cases f <;> decide)
    have hlead : ClauseLead (x.text.reverse ++ '(' :: (f.name.toList.reverse ++ before)) :=
      x.clauseLead (border_cons.2 (by decide))
    have hne : f.name.toList ≠ [] := by cases f <;> decide
    have hcalls : isOneOf fromFunctions f.name.toList = true := by cases f <;> decide
    have hcall := not_opensClause_call hplace.unquoted hb hne hplain hcalls (x.lacks listWords_subset).balanced hlead
    have hargument : Finds d (x.text.reverse ++ '(' :: (f.name.toList.reverse ++ before))
        (" FROM ".toList ++ (c.text ++ [')'])) t [] :=
      .skip (.unopened hcall) (.skip ((c.lacks listWords_subset).finds (border_cons.2 (by decide))) (.char (by decide)))
    have hopen : Finds d (f.name.toList.reverse ++ before) (['('] ++ (x.text ++
        (" FROM ".toList ++ (c.text ++ [')'])))) t [] :=
      .skip (.char (by decide)) (.skip ((x.lacks listWords_subset).finds (border_cons.2 (by decide))) hargument)
    exact .skip (hname.finds (border_cons.2 (by decide))) hopen

/-- The last entry of a select list stands before its FROM. -/
theorem selectText_clauseLead (first : Selected) (others : List Selected) (hb : Border before) :
    ClauseLead ((selectText first others).reverse ++ before) := by
  induction others generalizing first before with
  | nil => exact first.clauseLead hb
  | cons s others ih =>
    have hrev : (selectText first (s :: others)).reverse ++ before =
        (selectText s others).reverse ++ ' ' :: ',' :: (first.text.reverse ++ before) := by
      simp [selectText]
    rw [hrev]
    exact ih s (border_cons.2 (by decide))

theorem selectText_finds (first : Selected) (others : List Selected) (hplace : ClausePlace before)
    (hb : Border before) (ht : Border t) : Finds d before (selectText first others) t [] := by
  induction others generalizing first before with
  | nil => exact first.finds hplace hb ht
  | cons s others ih =>
    have hcomma : Balanced ", ".toList := .of_all (by decide)
    have hnext : ClausePlace (", ".toList.reverse ++ (first.text.reverse ++ before)) :=
      (hplace.append first.balanced).append hcomma
    exact .skip (first.finds hplace hb (border_cons.2 (by decide)))
      (.skip (.skip (s := [',']) (.char (by decide)) (.char (by decide)))
        (ih s hnext (border_cons.2 (by decide))))

/-! ### Queries -/

/-- In a query in parentheses the tables of the query are found. -/
private theorem parenthesized_finds {q : Query}
    (hq : ∀ {before t}, ClausePlace before → ListEnd t → Finds d before q.text t (q.tables d))
    (hplace : ClausePlace before) (hcall : NoCall before) :
    Finds d before (parenthesized q.text) t (q.tables d) := by
  have hblank : Balanced [' '] := .of_all (by decide)
  have hinner : ClausePlace ("( ".toList.reverse ++ before) := (hplace.paren hcall).append hblank
  have hclose : Finds d (q.text.reverse ++ ("( ".toList.reverse ++ before)) " )".toList t [] :=
    .skip (s := [' ']) (.char (by decide)) (.char (by decide))
  exact .skip (.skip (s := ['(']) (.char (by decide)) (.char (by decide)))
    ((hq hinner .close).close hclose)

/-- Behind a FROM that opens a clause the tables of its list and of the condition are found: the FROM
itself yields the first items, and the scan behind it what the entries hold. -/
theorem finds_from {items : Items} {filter : Filter} (hopens : opensClause (' ' :: before) = true)
    (ht : ListEnd (filter.text ++ t))
    (hitems : Finds d (" FROM ".toList.reverse ++ before) items.text (filter.text ++ t)
      (items.inner d))
    (hfilter : Finds d (items.text.reverse ++ (" FROM ".toList.reverse ++ before)) filter.text t
      (filter.tables d)) :
    Finds d before (" FROM ".toList ++ (items.text ++ filter.text)) t
      (items.tables d ++ filter.tables d) := by
  have hheads : Finds d before " FROM ".toList ((items.text ++ filter.text) ++ t)
      (items.heads d) := by
    rw [List.append_assoc items.text, ← items.readItems_text ht]
    conv => arg 5; rw [← items.trimStart]
    exact .opened hopens
  have hall := hheads.append (hitems.append hfilter)
  rw [← List.append_assoc (items.heads d)] at hall
  exact hall.perm ((items.heads_inner_perm d).append_right _)

/-- Behind a UNION the tables of the second query are found. -/
theorem finds_union (all : Bool) {right : Query} (hplace : ClausePlace before)
    (hright : ∀ {before}, ClausePlace before → Finds d before right.text t (right.tables d)) :
    Finds d before ((if all then " UNION ALL ".toList else " UNION ".toList) ++ right.text) t
      (right.tables d) := by
  cases all with
  | false =>
    have hword : Balanced " UNION ".toList := (by decide : Flat _).balanced
    exact .skip (.lead (s := " UNION".toList) (by decide) (by decide))
      (hright (hplace.append hword))
  | true =>
    have hword : Balanced " UNION ALL ".toList := (by decide : Flat _).balanced
    exact .skip (.lead (s := " UNION ALL".toList) (by decide) (by decide))
      (hright (hplace.append hword))

mutual

theorem Query.finds {before t : List Char} (hplace : ClausePlace before) (ht : ListEnd t) :
    (q : Query) → Finds d before q.text t (q.tables d)
  | .select first others items filter => by
    have hselect : Balanced "SELECT ".toList := (by decide : Flat _).balanced
    have hfrom : Balanced " FROM ".toList := (by decide : Flat _).balanced
    have hlist := hplace.append hselect
    have hend := hlist.append (selectText_balanced first others)
    have hitems := hend.append hfrom
    have hopens := hend.opensClause (selectText_clauseLead first others (border_cons.2 (by decide)))
    have hrest : ListEnd (filter.text ++ t) := filter.listEnd ht
    exact .skip (.lead (s := "SELECT".toList) (by decide) (by decide))
      (.skip (selectText_finds first others hlist (border_cons.2 (by decide))
          (border_cons.2 (by decide)))
        (finds_from hopens hrest (items.finds hitems rfl hrest.item)
          (filter.finds (hitems.append items.balanced) ht.border)))
  | .union all left right =>
    (left.finds hplace (.ofUnion all)).append
      (finds_union all (hplace.append left.balanced) fun h => right.finds h ht)

theorem Items.finds {before t : List Char} (hplace : ClausePlace before) (hcall : NoCall before)
    (ht : ItemEnd t) : (i : Items) → Finds d before i.text t (i.inner d)
  | .one source joins => by
    have hsource := source.finds hplace hcall (joins.border.append ht.border)
    exact hsource.append (joins.finds (hplace.append source.balanced) ht)
  | .more source joins rest => by
    have hcomma : Balanced ", ".toList := .of_all (by decide)
    have hjoins := hplace.append source.balanced
    have hrest := (hjoins.append joins.balanced).append hcomma
    have hitem : ItemEnd ((", ".toList ++ rest.text) ++ t) := .comma
    have hborder : Border ((joins.text ++ (", ".toList ++ rest.text)) ++ t) := by
      rw [List.append_assoc]
      exact joins.border.append hitem.border
    exact (source.finds hplace hcall hborder).append ((joins.finds hjoins hitem).append
      (.skip (.skip (s := [',']) (.char (by decide)) (.char (by decide))) (rest.finds hrest rfl ht)))

theorem Joins.finds {before t : List Char} (hplace : ClausePlace before) (ht : ItemEnd t) :
    (j : Joins) → Finds d before j.text t (j.tables d)
  | .nil => .nil
  | .cons kind source on rest => by
    have hjoin : Balanced " JOIN ".toList := (by decide : Flat _).balanced
    have hsource := (hplace.append kind.lead_lacks.balanced).append hjoin
    have hon := hsource.append source.balanced
    have hrest := hon.append (onText_lacks_listWords on).balanced
    have hitem : ItemEnd ((onText on ++ rest.text) ++ t) := by
      rw [List.append_assoc]
      exact onText_itemEnd on (rest.itemEnd ht)
    have hborder : Border (rest.text ++ t) := rest.border.append ht.border
    have hhead : Finds d (kind.lead.reverse ++ before) " JOIN ".toList
        ((source.text ++ (onText on ++ rest.text)) ++ t) (source.head d).toList := by
      rw [List.append_assoc source.text, ← source.readItems_text hitem]
      conv => arg 5; rw [← source.trimStart]
      exact .joined
    have hinner := source.finds hsource rfl hitem.border
    have hfound := hhead.append (hinner.append (.skip ((onText_lacks_listWords on).finds hborder)
      (rest.finds hrest ht)))
    rw [← List.append_assoc (source.head d).toList, ← source.tables_eq] at hfound
    exact .skip (kind.lead_lacks.finds (border_cons.2 (by decide))) hfound

theorem Source.finds {before t : List Char} (hplace : ClausePlace before) (hcall : NoCall before)
    (ht : Border t) : (s : Source) → Finds d before s.text t (s.inner d)
  | .table item => item.lacks_listWords.finds ht
  | .derived query calledAs => by
    have halias : Lacks listWords (' ' :: calledAs.text) :=
      .cons (by decide) (calledAs.lacks listWords_subset)
    exact (parenthesized_finds (fun h h' => query.finds h h') hplace hcall).close (halias.finds ht)

theorem Filter.finds {before t : List Char} (hplace : ClausePlace before) (ht : Border t) :
    (f : Filter) → Finds d before f.text t (f.tables d)
  | .none => .nil
  | .holds condition => by
    have hwhere : Balanced " WHERE ".toList := (by decide : Flat _).balanced
    exact .skip (.lead (s := " WHERE".toList) (by decide) (by decide))
      (condition.finds (hplace.append hwhere) (border_cons.2 (by decide)) ht)

theorem Condition.finds {before t : List Char} (hplace : ClausePlace before) (hb : Border before)
    (ht : Border t) : (c : Condition) → Finds d before c.text t (c.tables d)
  | .compare left op right => (left.lacks.append_word op.lacks right.lacks).finds ht
  | .distinct left right => by
    have hword : Finds d (left.text.reverse ++ before) " IS DISTINCT FROM ".toList
        (right.text ++ t) [] :=
      .skip (s := " IS DISTINCT".toList)
        (.flat (by decide) (by decide) (border_cons.2 (by decide)))
        (.unopened not_opensClause_distinct)
    exact .skip ((left.lacks listWords_subset).finds (border_cons.2 (by decide))) (.skip hword ((right.lacks listWords_subset).finds ht))
  | .within column query => by
    have hin : Balanced " IN ".toList := (by decide : Flat _).balanced
    have hquery := (hplace.append (column.lacks listWords_subset).balanced).append hin
    exact .skip ((column.lacks listWords_subset).finds (border_cons.2 (by decide)))
      (.skip (.lead (s := " IN".toList) (by decide) (by decide))
        (parenthesized_finds (fun h h' => query.finds h h') hquery rfl))
  | .present query => by
    have hexists : Balanced "EXISTS ".toList := (by decide : Flat _).balanced
    have hcall : NoCall ("EXISTS ".toList.reverse ++ before) :=
      .of_word (w := "EXISTS".toList) (by decide) (List.all_eq_true.1 (by decide)) (by decide) hb
    exact .skip (.lead (s := "EXISTS".toList) (by decide) (by decide))
      (parenthesized_finds (fun h h' => query.finds h h') (hplace.append hexists) hcall)
  | .and left right => by
    have hand : Balanced " AND ".toList := (by decide : Flat _).balanced
    have hright := (hplace.append left.balanced).append hand
    exact (left.finds hplace hb (border_cons.2 (by decide))).append
      (.skip (.lead (s := " AND".toList) (by decide) (by decide))
        (right.finds hright (border_cons.2 (by decide)) ht))
  | .or left right => by
    have hor : Balanced " OR ".toList := (by decide : Flat _).balanced
    have hright := (hplace.append left.balanced).append hor
    exact (left.finds hplace hb (border_cons.2 (by decide))).append
      (.skip (.lead (s := " OR".toList) (by decide) (by decide))
        (right.finds hright (border_cons.2 (by decide)) ht))

end

/-- From the text of a query the tables of the query are taken, each as often as it is named at any
level, with the schema written or the engine's own and the alias written or its own name. No table
is missed and none is made up. -/
theorem tables_text_perm (d : Dialect) (q : Query) : (tables d q.text).Perm (q.tables d) := by
  have hfound : (tablesFrom d [] (q.text ++ [])).Perm
      (q.tables d ++ tablesFrom d (q.text.reverse ++ []) []) := q.finds .start .nil
  rw [tablesFrom_nil, List.append_nil, List.append_nil] at hfound
  exact hfound

end Querent.Sql
