import Mathlib.Algebra.Order.BigOperators.Group.List
import Mathlib.Algebra.Ring.Nat
import Querent.Proofs.Json.Number

/-! How many bytes JSON text has: each character of a string at least one, each value at least one, and an
object those of its members and of the commas between them. -/
namespace Querent

theorem one_le_utf8ByteSize {s : String} (h : s ≠ "") : 1 ≤ s.utf8ByteSize :=
  Nat.one_le_iff_ne_zero.2 fun hnone => h (String.utf8ByteSize_eq_zero_iff.1 hnone)

theorem ofList_ne_empty {cs : List Char} (h : cs ≠ []) : String.ofList cs ≠ "" := fun hnone =>
  h (by simpa using congrArg String.toList hnone)

theorem Decimal.one_le_render (l : Layout) (c : Nat) (k : Int) : 1 ≤ (l.render c k).utf8ByteSize := by
  refine one_le_utf8ByteSize ?_
  unfold Layout.render
  dsimp only
  split
  · split
    · exact ofList_ne_empty (by simp)
    · split <;> exact ofList_ne_empty (by simp)
  · exact ofList_ne_empty (by simp)

theorem Number.one_le_text (n : Number) : 1 ≤ n.text.utf8ByteSize := by
  cases n with
  | int n =>
    obtain ⟨c, cs, hwritten, -⟩ := Json.Token.exists_opensNumber (wellFormed_integerLiteral n)
    refine one_le_utf8ByteSize fun hnone => ?_
    have htext := text_int n
    rw [hnone, hwritten] at htext
    cases htext
  | float x =>
    have hzero : "0.0".utf8ByteSize = 3 := by decide
    simp only [text, Decimal.Layout.text]
    split
    · rw [String.utf8ByteSize_append, hzero]
      omega
    · rw [String.utf8ByteSize_append]
      exact (Decimal.one_le_render _ _ _).trans (Nat.le_add_left _ _)

namespace Json

theorem one_le_escape (c : Char) : 1 ≤ (escape c).utf8ByteSize := by
  unfold escape
  split
  all_goals try decide
  have hmark : "\\u".utf8ByteSize = 2 := by decide
  split
  · rw [String.utf8ByteSize_append, hmark]
    omega
  · rw [Char.toString, String.utf8ByteSize_singleton]
    exact c.utf8Size_pos

/-- The bytes of characters inside a string. -/
def escapedBytes (cs : List Char) : Nat := (cs.map fun c => (escape c).utf8ByteSize).sum

theorem escapedBytes_append (cs cs' : List Char) :
    escapedBytes (cs ++ cs') = escapedBytes cs + escapedBytes cs' := by
  rw [escapedBytes, List.map_append, List.sum_append, escapedBytes, escapedBytes]

theorem length_le_escapedBytes (cs : List Char) : cs.length ≤ escapedBytes cs := by
  have hone : ∀ n ∈ cs.map fun c => (escape c).utf8ByteSize, 1 ≤ n :=
    List.forall_mem_map.2 fun c _ => one_le_escape c
  simpa [escapedBytes] using List.length_le_sum_of_one_le _ hone

theorem utf8ByteSize_quote (s : String) : (quote s).utf8ByteSize = escapedBytes s.toList + 2 := by
  have hjoin (texts : List String) :
      (String.join texts).utf8ByteSize = (texts.map String.utf8ByteSize).sum := by
    induction texts with
    | nil => rfl
    | cons text texts ih =>
      rw [String.join_cons, String.utf8ByteSize_append, ih, List.map_cons, List.sum_cons]
  have hquote : "\"".utf8ByteSize = 1 := by decide
  rw [quote, String.utf8ByteSize_append, String.utf8ByteSize_append, hjoin, hquote, List.map_map,
    escapedBytes, Function.comp_def]
  omega

theorem one_le_compact (j : Json) : 1 ≤ j.compact.utf8ByteSize := by
  have hbrackets : "[".utf8ByteSize = 1 ∧ "\x7b".utf8ByteSize = 1 := by decide
  cases j with
  | null => decide
  | bool b => cases b <;> decide
  | number n => exact n.one_le_text
  | string s =>
    rw [compact, utf8ByteSize_quote]
    omega
  | array items =>
    rw [compact, String.utf8ByteSize_append, String.utf8ByteSize_append, hbrackets.1]
    omega
  | object members =>
    rw [compact, String.utf8ByteSize_append, String.utf8ByteSize_append, hbrackets.2]
    omega

/-- Members stand side by side with a comma between each two. -/
theorem utf8ByteSize_compactMembers (members : List (String × Json)) :
    (compactMembers members).utf8ByteSize =
      (members.map fun m => (quote m.1).utf8ByteSize + 1 + m.2.compact.utf8ByteSize).sum +
        (members.length - 1) := by
  have hmarks : ",".utf8ByteSize = 1 ∧ ":".utf8ByteSize = 1 := by decide
  induction members with
  | nil => rfl
  | cons m members ih =>
    obtain ⟨k, v⟩ := m
    cases members with
    | nil => simp [compactMembers, hmarks.2]
    | cons m' members =>
      rw [compactMembers]
      · simp only [String.utf8ByteSize_append, ih, hmarks, List.map_cons, List.sum_cons,
          List.length_cons]
        omega
      · simp

end Json

end Querent
