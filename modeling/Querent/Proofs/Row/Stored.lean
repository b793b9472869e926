import Querent.Proofs.Json.Members
import Querent.Proofs.Ordered
import Querent.Row.Columnar

/-! Columns that were stored as JSON and are read again. The members of a stored object are sorted
by name, and that is all that is lost. -/
namespace Querent

variable {members : List (String × Json)}

theorem ofJson_toJson (p : Primitive) : Primitive.ofJson p.toJson = p := by
  cases p <;> rfl

namespace Columnar

/-- A column as it is stored. -/
def member (c : String × List Primitive) : String × Json := (c.1, .array (c.2.map Primitive.toJson))

/-- What a stored member is read as. -/
def readMember (m : String × Json) : String × List Primitive := (m.1, (values? m.2).getD [])

theorem values?_member (c : String × List Primitive) : values? (member c).2 = some c.2 := by
  have hvalues : (c.2.map Primitive.toJson).map Primitive.ofJson = c.2 := by
    rw [List.map_map]
    conv_rhs => rw [← List.map_id c.2]
    exact List.map_congr_left fun p _ => ofJson_toJson p
  exact congrArg some hvalues

theorem readMember_member (c : String × List Primitive) : readMember (member c) = c := by
  unfold readMember
  rw [values?_member]
  rfl

theorem mapM_members (hmembers : ∀ m ∈ members, ∃ c, m = member c) :
    members.mapM (fun m => (values? m.2).map fun vs => (m.1, vs)) =
      some (members.map readMember) := by
  induction members with
  | nil => rfl
  | cons m members ih =>
    obtain ⟨⟨c, rfl⟩, hrest⟩ := List.forall_mem_cons.1 hmembers
    rw [List.mapM_cons, values?_member, ih hrest, List.map_cons, readMember_member]
    rfl

/-- Stored columns are read as they were, value for value, in the order of their names. -/
theorem ofJson?_toValue (t : Columnar) :
    ∃ t', ofJson? t.toValue = some t' ∧ t'.entries.Perm t.entries := by
  let stored := Json.sortMembers (t.entries.map member)
  have hkeys : ((t.entries.map member).map (·.1)).Nodup := by
    rw [List.map_map]
    exact t.nodup
  have hstored : stored.Perm (t.entries.map member) := sortMembers_perm hkeys
  have hread : (stored.map readMember).Perm t.entries := by
    have hback : (t.entries.map member).map readMember = t.entries := by
      rw [List.map_map]
      conv_rhs => rw [← List.map_id t.entries]
      exact List.map_congr_left fun c _ => readMember_member c
    rw [← hback]
    exact hstored.map _
  have hmembers : ∀ m ∈ stored, ∃ c, m = member c := by
    intro m hm
    obtain ⟨c, -, rfl⟩ := List.mem_map.1 (hstored.mem_iff.1 hm)
    exact ⟨c, rfl⟩
  have hnodup : ((stored.map readMember).map (·.1)).Nodup := (hread.map _).nodup_iff.2 t.nodup
  refine ⟨.ofList (stored.map readMember), ?_, ?_⟩
  · have hvalue : t.toValue = .object stored := rfl
    simp [ofJson?, hvalue, Json.members?, mapM_members hmembers]
  · rw [Ordered.entries_ofList hnodup]
    exact hread

/-- The order of columns is not stored. -/
theorem toValue_congr {t t' : Columnar} (h : t'.entries.Perm t.entries) : t'.toValue = t.toValue := by
  have hkeys : ((t.entries.map member).map (·.1)).Nodup := by
    rw [List.map_map]
    exact t.nodup
  exact congrArg Json.object (sortMembers_congr (h.map member) hkeys)

end Columnar

end Querent
