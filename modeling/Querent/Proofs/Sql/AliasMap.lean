import Querent.Proofs.Ordered
import Querent.Proofs.Sql.Lower

/-! Which table an alias stands for. References are bound one after the other, and an alias that two
tables have borne stays without one whatever comes behind. So the order of the references decides at most
in which letter case the table is spelled. -/
namespace Querent

open Sql

variable {a b c : String}

theorem sameText_refl (a : String) : sameText a a = true := by simp [sameText, Text.sameLetters]

theorem sameText_symm (h : sameText a b = true) : sameText b a = true := by
  simp only [sameText, Text.sameLetters, beq_iff_eq] at h ⊢
  exact h.symm

theorem sameText_trans (hab : sameText a b = true) (hbc : sameText b c = true) :
    sameText a c = true := by
  simp only [sameText, Text.sameLetters, beq_iff_eq] at hab hbc ⊢
  exact hab.trans hbc

theorem sameText_congr (h : sameText a b = true) : sameText a c = sameText b c := by
  simp only [sameText, Text.sameLetters, beq_iff_eq] at h ⊢
  rw [h]

namespace Sql

variable {refs refs' : List TableRef} {r r' r'' : TableRef} {name k : String}

namespace TableRef

theorem sameTable_iff : r.sameTable r' = true ↔ sameText r.table r'.table = true ∧
    ((r.schema = none ∧ r'.schema = none) ∨
      ∃ s s', r.schema = some s ∧ r'.schema = some s' ∧ sameText s s' = true) := by
  unfold sameTable
  cases r.schema <;> cases r'.schema <;> simp

theorem sameTable_refl (r : TableRef) : r.sameTable r = true := by
  rw [sameTable_iff]
  cases r.schema <;> simp [sameText_refl]

theorem sameTable_symm (h : r.sameTable r' = true) : r'.sameTable r = true := by
  rw [sameTable_iff] at h ⊢
  obtain ⟨htable, ⟨h, h'⟩ | ⟨s, s', h, h', hs⟩⟩ := h
  · exact ⟨sameText_symm htable, .inl ⟨h', h⟩⟩
  · exact ⟨sameText_symm htable, .inr ⟨s', s, h', h, sameText_symm hs⟩⟩

theorem sameTable_trans (h : r.sameTable r' = true) (h' : r'.sameTable r'' = true) :
    r.sameTable r'' = true := by
  rw [sameTable_iff] at h h' ⊢
  refine ⟨sameText_trans h.1 h'.1, ?_⟩
  rcases h.2 with ⟨hr, hr'⟩ | ⟨s, s', hr, hr', hs⟩
  · rcases h'.2 with ⟨-, hr''⟩ | ⟨t, t', ht, -, -⟩
    · exact .inl ⟨hr, hr''⟩
    · simp [hr'] at ht
  · rcases h'.2 with ⟨ht, -⟩ | ⟨t, t', ht, ht', hs'⟩
    · simp [hr'] at ht
    · obtain rfl : s' = t := by simpa [hr'] using ht
      exact .inr ⟨s, t', hr, ht', sameText_trans hs hs'⟩

/-- What names one table under one alias is spelled alike but for letter case. -/
theorem lowered_eq (h : r.sameTable r' = true) (hcalled : sameText r.calledAs r'.calledAs = true) :
    r.lowered = r'.lowered := by
  obtain ⟨htable, hschema⟩ := sameTable_iff.1 h
  have hlowered : r.schema.map Querent.lowered = r'.schema.map Querent.lowered := by
    rcases hschema with ⟨hr, hr'⟩ | ⟨s, s', hr, hr', hs⟩
    · rw [hr, hr']
    · rw [hr, hr', Option.map_some, Option.map_some, sameText_iff.1 hs]
  unfold lowered
  rw [hlowered, sameText_iff.1 htable, sameText_iff.1 hcalled]

end TableRef

/-! ### Binding -/

namespace AliasMap

theorem key_eq_key_iff : key a = key b ↔ sameText a b = true := sameText_iff.symm

/-- What an alias is bound to once one more reference bears it. -/
def rebound (bound : Option (Option TableRef)) (r : TableRef) : Option TableRef :=
  match bound with
  | none => some r
  | some kept => if kept.any fun b => !b.sameTable r then none else kept

/-- One reference changes what is bound to its own alias. -/
theorem get?_bind (m : AliasMap) : (m.bind r).entries.get? k =
    if key r.calledAs = k then some (rebound (m.entries.get? k) r) else m.entries.get? k := by
  unfold bind
  by_cases hk : key r.calledAs = k
  · subst hk
    rw [if_pos rfl]
    cases hbound : m.entries.get? (key r.calledAs) with
    | none => simp [Ordered.get?_put, rebound]
    | some kept =>
      by_cases hother : (kept.any fun b => !b.sameTable r) = true
      · simp [Ordered.get?_put, rebound, hother]
      · simp [rebound, hother, hbound]
  · rw [if_neg hk]
    split
    · rw [Ordered.get?_put, if_neg hk]
    · split
      · rw [Ordered.get?_put, if_neg hk]
      · rfl

/-- What the references that bear an alias leave it bound to: the first of them, or no table if another
one is not the same. -/
def settled : List TableRef → Option (Option TableRef)
  | [] => none
  | r :: rest => some (if rest.all r.sameTable then some r else none)

theorem settled_concat (rs : List TableRef) (r : TableRef) :
    settled (rs ++ [r]) = some (rebound (settled rs) r) := by
  cases rs with
  | nil => rfl
  | cons b rest =>
    cases hrest : rest.all b.sameTable <;> cases hr : b.sameTable r <;>
      simp [settled, rebound, hrest, hr, List.all_append]

theorem get?_ofRefs (refs : List TableRef) (k : String) : (ofRefs refs).entries.get? k =
    settled (refs.filter fun r => key r.calledAs == k) := by
  induction refs using List.reverseRecOn with
  | nil => rfl
  | append_singleton refs r ih =>
    have hlast : ofRefs (refs ++ [r]) = (ofRefs refs).bind r := by simp [ofRefs]
    rw [hlast, get?_bind, ih, List.filter_append]
    by_cases hk : key r.calledAs = k
    · rw [if_pos hk, List.filter_singleton, beq_iff_eq.2 hk]
      exact (settled_concat _ r).symm
    · simp [hk]

end AliasMap

/-- The table of an alias is that of the first reference that bears it, unless another one that does names
a different table. -/
theorem lookup_eq (refs : List TableRef) (name : String) : lookup refs name =
    match refs.filter fun r => sameText r.calledAs name with
    | [] => none
    | r :: rest => if rest.all r.sameTable then some r else none := by
  have hkey : (fun r : TableRef => AliasMap.key r.calledAs == AliasMap.key name) =
      fun r => sameText r.calledAs name := by
    funext r
    rw [Bool.eq_iff_iff, beq_iff_eq, AliasMap.key_eq_key_iff]
  rw [lookup, AliasMap.get, AliasMap.get?_ofRefs, hkey]
  cases refs.filter fun r => sameText r.calledAs name <;> rfl

/-! ### What an alias stands for -/

/-- The references that bear an alias, in any letter case, all name one table. -/
def OneTable (refs : List TableRef) (name : String) : Prop :=
  ∀ r ∈ refs, ∀ r' ∈ refs, sameText r.calledAs name = true → sameText r'.calledAs name = true →
    r.sameTable r' = true

instance (refs : List TableRef) (name : String) : Decidable (OneTable refs name) :=
  inferInstanceAs (Decidable (∀ r ∈ refs, ∀ r' ∈ refs, _ → _ → _))

theorem lookup_eq_some_iff : lookup refs name = some r ↔
    refs.find? (fun r => sameText r.calledAs name) = some r ∧ OneTable refs name := by
  have hmem (x : TableRef) : x ∈ refs.filter (fun r => sameText r.calledAs name) ↔
      x ∈ refs ∧ sameText x.calledAs name = true := List.mem_filter
  rw [lookup_eq, ← List.head?_filter]
  cases hbearers : refs.filter fun r => sameText r.calledAs name with
  | nil => simp
  | cons b rest =>
    rw [hbearers] at hmem
    -- all are the table of the first exactly if each is the table of each
    have hone : rest.all b.sameTable = true ↔ OneTable refs name := by
      rw [List.all_eq_true]
      constructor
      · intro hall x hx x' hx' hcalled hcalled'
        have hsame : ∀ y ∈ b :: rest, b.sameTable y = true :=
          List.forall_mem_cons.2 ⟨TableRef.sameTable_refl b, hall⟩
        exact TableRef.sameTable_trans (TableRef.sameTable_symm (hsame x ((hmem x).2 ⟨hx, hcalled⟩)))
          (hsame x' ((hmem x').2 ⟨hx', hcalled'⟩))
      · intro h x hx
        obtain ⟨hb, hcalled⟩ := (hmem b).1 List.mem_cons_self
        obtain ⟨hx, hcalled'⟩ := (hmem x).1 (List.mem_cons_of_mem b hx)
        exact h b hb x hx hcalled hcalled'
    by_cases hall : rest.all b.sameTable = true
    · simp [hall, hone.1 hall]
    · simp [hall, mt hone.2 hall]

theorem lookup_isSome_iff : (lookup refs name).isSome ↔
    (∃ r ∈ refs, sameText r.calledAs name = true) ∧ OneTable refs name := by
  rw [← List.find?_isSome, Option.isSome_iff_exists, Option.isSome_iff_exists, ← exists_and_right]
  exact exists_congr fun r => lookup_eq_some_iff

/-- Neither the order of the references matters nor how often each comes. -/
theorem lookup_congr (h : ∀ r, r ∈ refs ↔ r ∈ refs') :
    (lookup refs name).map TableRef.lowered = (lookup refs' name).map TableRef.lowered := by
  have hone : OneTable refs name ↔ OneTable refs' name := by simp only [OneTable, h]
  have hsome : (lookup refs name).isSome ↔ (lookup refs' name).isSome := by
    rw [lookup_isSome_iff, lookup_isSome_iff, hone]
    simp only [h]
  cases hr : lookup refs name with
  | none =>
    rw [hr] at hsome
    rw [Option.not_isSome_iff_eq_none.1 (mt hsome.2 (by simp))]
  | some r =>
    obtain ⟨r', hr'⟩ := Option.isSome_iff_exists.1 (hsome.1 (by simp [hr]))
    rw [hr', Option.map_some, Option.map_some]
    obtain ⟨hfirst, hsame⟩ := lookup_eq_some_iff.1 hr
    obtain ⟨hfirst', -⟩ := lookup_eq_some_iff.1 hr'
    have hmem' := (h r').2 (List.mem_of_find?_eq_some hfirst')
    have hcalled := List.find?_some hfirst
    have hcalled' := List.find?_some hfirst'
    rw [TableRef.lowered_eq (hsame r (List.mem_of_find?_eq_some hfirst) r' hmem' hcalled hcalled')
      (sameText_trans hcalled (sameText_symm hcalled'))]

namespace AliasMap

/-- An alias stands for a table exactly if a reference bears it and all that do name one table. It then
stands for the first of them, and for the same one, but for letter case, in any other order of the
references. -/
theorem get_in_any_order (refs : List TableRef) (name : String) :
    let found := (ofRefs refs).get name
    (found.isSome ↔ (∃ r ∈ refs, sameText r.calledAs name = true) ∧ OneTable refs name) ∧
    (∀ r, found = some r → refs.find? (fun r => sameText r.calledAs name) = some r) ∧
    ∀ refs', refs.Perm refs' →
      found.map TableRef.lowered = ((ofRefs refs').get name).map TableRef.lowered := by
  intro found
  refine ⟨lookup_isSome_iff, fun r h => ?_, fun refs' h => ?_⟩
  · obtain ⟨hfirst, -⟩ := lookup_eq_some_iff.1 h
    exact hfirst
  · exact lookup_congr fun r => h.mem_iff

/-- Orders under one alias in two spellings, and two tables under another alias. -/
def sharedAliases : List TableRef :=
  [⟨some "public", "orders", "o"⟩, ⟨none, "payroll", "p"⟩, ⟨some "PUBLIC", "Orders", "O"⟩,
    ⟨some "hr", "payroll", "P"⟩, ⟨none, "payroll", "p"⟩]

/-- The alias of the two tables stays without one when the first comes again. -/
theorem get_in_any_order_shared :
    (ofRefs sharedAliases).get "O" = some ⟨some "public", "orders", "o"⟩ ∧
      ((ofRefs sharedAliases.reverse).get "O").map TableRef.lowered =
        some ⟨some "public", "orders", "o"⟩ ∧
      (ofRefs sharedAliases).get "p" = none := by
  obtain ⟨hbound, hfirst, hperm⟩ := get_in_any_order sharedAliases "O"
  obtain ⟨hbound', -⟩ := get_in_any_order sharedAliases "p"
  obtain ⟨r, hr⟩ := Option.isSome_iff_exists.1
    (hbound.2 ⟨⟨_, List.mem_cons_self, by decide⟩, by decide⟩)
  have hfind : sharedAliases.find? (fun r => sameText r.calledAs "O") =
      some ⟨some "public", "orders", "o"⟩ := by decide
  obtain rfl := Option.some.inj (hfind.symm.trans (hfirst r hr))
  refine ⟨hr, ?_, ?_⟩
  · rw [← hperm _ (List.reverse_perm _).symm, hr]
    decide
  · rw [← Option.not_isSome_iff_eq_none, hbound']
    exact fun h => absurd h.2 (by decide)

end AliasMap

end Sql

end Querent
