import Querent.Proofs.Guard.JoinSound
import Querent.Proofs.Guard.JoinVerdict

/-! Policies side by side. What a policy accepts every wider one accepts, with the same text to run, and
foreign keys count as pairs of columns, in whichever order and direction they are declared. -/
namespace Querent

/-- Two foreign keys join the same two columns, in one direction or the other. -/
def ForeignKey.SameEnds (k k' : ForeignKey) : Prop :=
  (k'.source = k.source ∧ k'.target = k.target) ∨ (k'.source = k.target ∧ k'.target = k.source)

/-- Every key of the first list is in the second, in either direction. -/
def KeysWithin (keys keys' : List ForeignKey) : Prop := ∀ k ∈ keys, ∃ k' ∈ keys', k.SameEnds k'

theorem isDeclaredJoin_of_keysWithin {keys keys' : List ForeignKey} {a b : ResolvedColumn}
    (h : KeysWithin keys keys') (hjoin : isDeclaredJoin keys a b = true) :
    isDeclaredJoin keys' a b = true := by
  obtain ⟨k, hk, hagree⟩ := List.any_eq_true.1 hjoin
  obtain ⟨k', hk', hsame⟩ := h k hk
  refine List.any_eq_true.2 ⟨k', hk', ?_⟩
  rcases hsame with ⟨hsource, htarget⟩ | ⟨hsource, htarget⟩
  · rw [hsource, htarget]
    exact hagree
  · rw [hsource, htarget, Bool.or_comm]
    exact hagree

theorem isDeclaredJoin_congr {keys keys' : List ForeignKey} (h : KeysWithin keys keys')
    (h' : KeysWithin keys' keys) (a b : ResolvedColumn) :
    isDeclaredJoin keys a b = isDeclaredJoin keys' a b :=
  Bool.eq_iff_iff.2 ⟨isDeclaredJoin_of_keysWithin h, isDeclaredJoin_of_keysWithin h'⟩

namespace Guard

open Text Sql

variable {keys keys' : List ForeignKey} {policy policy' : Policy} {refs : List TableRef}
  {text : List Char} {schema sql out out' : String}

/-- A policy with its foreign keys, and another one that permits at least as much: it has the schemas of
the first on its list, in any letter case, or no list; the keys of the first are among its own; and it
forbids free joins only if the first does. Dialect and limit are the same. -/
structure Wider (keys : List ForeignKey) (policy : Policy) (keys' : List ForeignKey)
    (policy' : Policy) : Prop where
  dialect : policy'.dialect = policy.dialect
  schemas : ∀ list' ∈ policy'.allowedSchemas, ∃ list ∈ policy.allowedSchemas,
    ∀ s ∈ list, ∃ s' ∈ list', sameText s s' = true
  keys : KeysWithin keys keys'
  joins : policy'.forbidFreeJoins = true → policy.forbidFreeJoins = true
  limit : policy'.forceLimit = policy.forceLimit

namespace Wider

theorem schemaAllowed (h : Wider keys policy keys' policy')
    (hs : SchemaAllowed policy.allowedSchemas schema) :
    SchemaAllowed policy'.allowedSchemas schema := by
  intro list' hlist'
  obtain ⟨list, hlist, hsub⟩ := h.schemas list' hlist'
  obtain ⟨s, hs, hsame⟩ := hs list hlist
  obtain ⟨s', hs', hsame'⟩ := hsub s hs
  exact ⟨s', hs', sameText_trans hsame hsame'⟩

theorem checkSchemas (h : Wider keys policy keys' policy')
    (hok : checkSchemas policy.allowedSchemas refs = .ok ()) :
    checkSchemas policy'.allowedSchemas refs = .ok () := by
  rw [checkSchemas_eq_ok] at hok ⊢
  exact fun r hr s hs => h.schemaAllowed (hok r hr s hs)

theorem checkJoins (h : Wider keys policy keys' policy') (hok : checkJoins keys refs text = .ok ()) :
    checkJoins keys' refs text = .ok () := by
  rw [checkJoins_eq_ok] at hok ⊢
  intro condition hcondition
  obtain ⟨hne, hdeclared⟩ := hok condition hcondition
  refine ⟨hne, fun e he => ?_⟩
  obtain ⟨a, b, ha, hb, hjoin⟩ := declared_iff_resolve.1 (hdeclared e he)
  exact declared_iff_resolve.2 ⟨a, b, ha, hb, isDeclaredJoin_of_keysWithin h.keys hjoin⟩

theorem checkTables (h : Wider keys policy keys' policy')
    (hok : checkTables policy keys text = .ok ()) : checkTables policy' keys' text = .ok () := by
  obtain ⟨hschemas, hjoins⟩ := checkTables_eq_ok.1 hok
  refine checkTables_eq_ok.2 ⟨?_, fun hforbid => ?_⟩
  · rw [h.dialect]
    exact h.checkSchemas hschemas
  · rw [h.dialect]
    exact h.checkJoins (hjoins (h.joins hforbid))

end Wider

/-- Lists of keys that join the same pairs of columns lead to the same verdict on every table and join. -/
theorem checkTables_congr_keys (h : KeysWithin keys keys') (h' : KeysWithin keys' keys) :
    checkTables policy keys text = checkTables policy keys' text := by
  have hequality (refs : List TableRef) : checkEquality keys refs = checkEquality keys' refs := by
    funext e
    simp only [checkEquality, isDeclaredJoin_congr h h']
  have hjoin (refs : List TableRef) : checkJoin keys refs = checkJoin keys' refs := by
    funext j
    simp only [checkJoin, hequality]
  simp only [checkTables, checkJoins, hjoin]

/-- What a policy accepts a wider one accepts with the same text. Two policies with one limit that
accept a statement run the same text, and the verdict depends neither on the order nor on the direction
in which foreign keys are declared. -/
theorem validate_wider (sql : String) :
    (∀ keys policy keys' policy', Wider keys policy keys' policy' →
      ∀ out, validate keys policy sql = .ok out → validate keys' policy' sql = .ok out) ∧
    (∀ keys policy keys' policy' out out', policy'.forceLimit = policy.forceLimit →
      validate keys policy sql = .ok out → validate keys' policy' sql = .ok out' → out' = out) ∧
    ∀ policy keys keys', KeysWithin keys keys' → KeysWithin keys' keys →
      validate keys policy sql = validate keys' policy sql := by
  refine ⟨?_, ?_, ?_⟩
  · intro keys policy keys' policy' h out hok
    obtain ⟨hwords, htables, hout⟩ := validate_eq_ok.1 hok
    refine validate_eq_ok.2 ⟨hwords, h.checkTables htables, ?_⟩
    rw [h.limit]
    exact hout
  · intro keys policy keys' policy' out out' hlimit hok hok'
    obtain ⟨-, -, rfl⟩ := validate_eq_ok.1 hok
    obtain ⟨-, -, rfl⟩ := validate_eq_ok.1 hok'
    rw [hlimit]
  · intro policy keys keys' h h'
    simp only [validate, checkTables_congr_keys h h']

/-- A wider policy whose foreign key is declared the other way round and behind another one. -/
theorem validate_wider_reversed :
    let key : ForeignKey := ⟨none, ⟨"shop", "orders", "customer"⟩, ⟨"shop", "customers", "id"⟩⟩
    let back : ForeignKey := ⟨some "fk", ⟨"shop", "customers", "id"⟩, ⟨"shop", "orders", "customer"⟩⟩
    let sql := "SELECT * FROM shop.orders o JOIN shop.customers c ON o.customer = c.id"
    Wider [key] ⟨.mysql, some ["Shop"], 101, true⟩ [sharedNumber, back]
        ⟨.mysql, some ["hr", "shop"], 101, true⟩ ∧
      validate [key] ⟨.mysql, some ["Shop"], 101, true⟩ sql = .ok (sql ++ " LIMIT 101") ∧
      validate [sharedNumber, back] ⟨.mysql, some ["hr", "shop"], 101, true⟩ sql =
        .ok (sql ++ " LIMIT 101") ∧
      validate [back] ⟨.mysql, some ["Shop"], 101, true⟩ sql = .ok (sql ++ " LIMIT 101") := by
  intro key back sql
  have hwider : Wider [key] ⟨.mysql, some ["Shop"], 101, true⟩ [sharedNumber, back]
      ⟨.mysql, some ["hr", "shop"], 101, true⟩ := by
    refine ⟨rfl, ?_, ?_, fun h => h, rfl⟩
    · rintro list' ⟨⟩
      exact ⟨["Shop"], rfl, by decide +kernel⟩
    · intro k hk
      obtain rfl := List.mem_singleton.1 hk
      exact ⟨back, by simp, .inr ⟨rfl, rfl⟩⟩
  have hok : validate [key] ⟨.mysql, some ["Shop"], 101, true⟩ sql = .ok (sql ++ " LIMIT 101") :=
    eq_ok_of_toOption (by decide +kernel)
  obtain ⟨hwiden, -, hkeys⟩ := validate_wider sql
  have hback : KeysWithin [key] [back] := fun k hk => by
    obtain rfl := List.mem_singleton.1 hk
    exact ⟨back, by simp, .inr ⟨rfl, rfl⟩⟩
  have hforth : KeysWithin [back] [key] := fun k hk => by
    obtain rfl := List.mem_singleton.1 hk
    exact ⟨key, by simp, .inr ⟨rfl, rfl⟩⟩
  exact ⟨hwider, hok, hwiden _ _ _ _ hwider _ hok, (hkeys _ _ _ hforth hback).trans hok⟩

end Guard

end Querent
