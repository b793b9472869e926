/-! Maps from names that keep the order in which the names first came. -/
namespace Querent

/-- Values under distinct names, in the order of the names' first appearance. -/
structure Ordered (α : Type) where
  entries : List (String × α)
  nodup : (entries.map (·.1)).Nodup

namespace Ordered

variable {α β : Type}

def empty : Ordered α := ⟨[], List.nodup_nil⟩

instance : Inhabited (Ordered α) := ⟨empty⟩

/-- Puts a value under a name: at the end, or in place of the value it had. -/
def putEntry (name : String) (v : α) : List (String × α) → List (String × α)
  | [] => [(name, v)]
  | (k, w) :: rest => if k == name then (k, v) :: rest else (k, w) :: putEntry name v rest

theorem putEntry_keys (name : String) (v : α) (entries : List (String × α)) :
    (putEntry name v entries).map (·.1) =
      if name ∈ entries.map (·.1) then entries.map (·.1) else entries.map (·.1) ++ [name] := by
  induction entries with
  | nil => simp [putEntry]
  | cons e rest ih =>
    obtain ⟨k, w⟩ := e
    by_cases h : k = name
    · simp [putEntry, h]
    · have h' : ¬name = k := fun e => h e.symm
      simp only [putEntry, beq_iff_eq, h, if_false, List.map_cons, ih, List.mem_cons, h',
        false_or]
      split <;> rfl

def put (m : Ordered α) (name : String) (v : α) : Ordered α :=
  ⟨putEntry name v m.entries, by
    rw [putEntry_keys]
    split
    · exact m.nodup
    · rename_i h
      exact List.nodup_append.2 ⟨m.nodup, by simp, by
        intro a ha b hb
        obtain rfl := List.mem_singleton.1 hb
        exact fun e => h (e ▸ ha)⟩⟩

/-- The values in turn; a name that comes again keeps its place and takes the later value. -/
def ofList (pairs : List (String × α)) : Ordered α :=
  pairs.foldl (fun m (k, v) => m.put k v) empty

def get? (m : Ordered α) (name : String) : Option α :=
  (m.entries.find? (·.1 == name)).map (·.2)

def keys (m : Ordered α) : List String := m.entries.map (·.1)

def values (m : Ordered α) : List α := m.entries.map (·.2)

def size (m : Ordered α) : Nat := m.entries.length

/-- A new value under each name. -/
def mapWithKey (f : String → α → β) (m : Ordered α) : Ordered β :=
  ⟨m.entries.map fun (k, v) => (k, f k v), by
    have h : (m.entries.map fun (k, v) => (k, f k v)).map (·.1) = m.entries.map (·.1) := by
      simp [List.map_map, Function.comp_def]
    rw [h]
    exact m.nodup⟩

end Ordered

end Querent
