import Querent.Proofs.Text.Search
import Querent.Sql.Join

/-! Where a text is cut at a word, the joins read from it, and the phases a statement goes through
at its JOINs, ONs and clause keywords. -/
namespace Querent.Sql

open Text

variable {p : List Char → Bool} {s t w b a : List Char}

/-! ### Cutting a text at a word -/

theorem upTo_isPrefix : upTo p t <+: t := by
  unfold upTo
  cases hfind : findWord p t with
  | none => exact List.prefix_refl t
  | some f =>
    obtain ⟨b, hb, ht, -⟩ := exists_of_findWord hfind
    exact ⟨f.word ++ f.after, by simp [hb, ht]⟩

theorem upTo_append (hs : ∀ w ∈ words s, p w = false) (h : Apart isWordChar s t) :
    upTo p (s ++ t) = s ++ upTo p t := by
  unfold upTo
  rw [findWord_append hs h]
  cases findWord p t <;> simp

theorem upTo_eq_before (h : WholeWord b w a) (hp : p w = true) (hb : ∀ v ∈ words b, p v = false) :
    upTo p (b ++ (w ++ a)) = b := by
  rw [upTo, h.findWord hp hb]
  exact List.reverse_reverse b

/-! ### Joins -/

theorem joins_of_some {f : Found} (h : findWord (spells "JOIN") s = some f) :
    joins s = readJoin (upTo (spells "JOIN") f.after) :: joins f.after := by
  rw [joins]
  split
  · rename_i heq
    exact absurd (h.symm.trans heq) (by simp)
  · rename_i heq
    obtain rfl := Option.some.inj (h.symm.trans heq)
    rfl

theorem joins_of_none (h : findWord (spells "JOIN") s = none) : joins s = [] := by
  rw [joins]
  split
  · rfl
  · rename_i heq
    exact absurd (h.symm.trans heq) (by simp)

theorem joins_append (hs : ∀ w ∈ words s, spells "JOIN" w = false) (h : Apart isWordChar s t) :
    joins (s ++ t) = joins t := by
  have hfind := findWord_append hs h
  cases ht : findWord (spells "JOIN") t with
  | none => rw [joins_of_none ht, joins_of_none (by rw [hfind, ht]; rfl)]
  | some f =>
    rw [ht] at hfind
    rw [joins_of_some ht, joins_of_some hfind]

theorem joins_wholeWord (h : WholeWord b w a) (hw : spells "JOIN" w = true)
    (hb : ∀ v ∈ words b, spells "JOIN" v = false) :
    joins (b ++ (w ++ a)) = readJoin (upTo (spells "JOIN") a) :: joins a :=
  joins_of_some (h.findWord hw hb)

theorem condition_readJoin (h : WholeWord b w a) (hw : spells "ON" w = true)
    (hb : ∀ v ∈ words b, spells "ON" v = false) :
    (readJoin (b ++ (w ++ a))).condition = some (.ofList (trim (clauseText a))) := by
  rw [readJoin, h.findWord hw hb]

theorem condition_readJoin_append (hs : ∀ w ∈ words s, spells "ON" w = false)
    (h : Apart isWordChar s t) : (readJoin (s ++ t)).condition = (readJoin t).condition := by
  rw [readJoin, readJoin, findWord_append hs h]
  cases findWord (spells "ON") t <;> rfl

/-! ### Phases -/

/-- Whether a word spells one of the keywords that end the condition of a join. -/
def isClauseWord (w : List Char) : Bool := conditionEnds.any fun k => spells k w

/-- The text before the next JOIN or clause keyword. -/
def predicateText (t : List Char) : List Char := clauseText (upTo (spells "JOIN") t)

/-- Where a place of a statement lies: before every JOIN, behind the last one and before its ON,
behind this ON, or behind a clause keyword that follows it. -/
inductive Phase where
  | outside
  | target
  | condition
  | rest
deriving DecidableEq

def Phase.next (ph : Phase) (w : List Char) : Phase :=
  if spells "JOIN" w then target
  else match ph with
    | outside => outside
    | target => if spells "ON" w then condition else target
    | condition => if isClauseWord w then rest else condition
    | rest => rest

/-- The phase behind some words. -/
def phaseFrom (ph : Phase) (ws : List (List Char)) : Phase := ws.foldl Phase.next ph

/-- The phase at the end of a text. -/
def phaseOf (s : List Char) : Phase := phaseFrom .outside (words s)

variable {ph ph' : Phase} {ws vs : List (List Char)}

theorem phaseFrom_append : phaseFrom ph (ws ++ vs) = phaseFrom (phaseFrom ph ws) vs :=
  List.foldl_append

theorem phaseFrom_cons : phaseFrom ph (w :: ws) = phaseFrom (ph.next w) ws := rfl

/-- A JOIN makes what stands before it irrelevant. -/
theorem phaseFrom_of_join (h : ∃ w ∈ ws, spells "JOIN" w = true) :
    phaseFrom ph ws = phaseFrom ph' ws := by
  induction ws generalizing ph ph' with
  | nil => simp at h
  | cons w ws ih =>
    rw [phaseFrom_cons, phaseFrom_cons]
    by_cases hw : spells "JOIN" w = true
    · simp only [Phase.next, hw, if_true]
    · obtain ⟨v, hv, hj⟩ := h
      rcases List.mem_cons.1 hv with rfl | hv
      · exact absurd hj hw
      · exact ih ⟨v, hv, hj⟩

theorem phaseFrom_outside (h : ∀ w ∈ ws, spells "JOIN" w = false) :
    phaseFrom .outside ws = .outside := by
  induction ws with
  | nil => rfl
  | cons w ws ih =>
    have hw : Phase.next .outside w = .outside := by simp [Phase.next, h w (by simp)]
    rw [phaseFrom_cons, hw, ih fun v hv => h v (by simp [hv])]

theorem phaseFrom_rest (h : ∀ w ∈ ws, spells "JOIN" w = false) : phaseFrom .rest ws = .rest := by
  induction ws with
  | nil => rfl
  | cons w ws ih =>
    have hw : Phase.next .rest w = .rest := by simp [Phase.next, h w (by simp)]
    rw [phaseFrom_cons, hw, ih fun v hv => h v (by simp [hv])]

theorem phaseFrom_target (h : ∀ w ∈ ws, spells "JOIN" w = false)
    (hon : ∀ w ∈ ws, spells "ON" w = false) : phaseFrom .target ws = .target := by
  induction ws with
  | nil => rfl
  | cons w ws ih =>
    have hw : Phase.next .target w = .target := by
      simp [Phase.next, h w (by simp), hon w (by simp)]
    rw [phaseFrom_cons, hw, ih (fun v hv => h v (by simp [hv])) fun v hv => hon v (by simp [hv])]

theorem phaseFrom_condition (h : ∀ w ∈ ws, spells "JOIN" w = false) :
    phaseFrom .condition ws = if ws.any isClauseWord then .rest else .condition := by
  induction ws with
  | nil => rfl
  | cons w ws ih =>
    have hws : ∀ v ∈ ws, spells "JOIN" v = false := fun v hv => h v (by simp [hv])
    rw [phaseFrom_cons, List.any_cons]
    by_cases hw : isClauseWord w = true
    · have hnext : Phase.next .condition w = .rest := by simp [Phase.next, h w (by simp), hw]
      rw [hnext, phaseFrom_rest hws, hw, Bool.true_or, if_pos rfl]
    · have hnext : Phase.next .condition w = .condition := by
        simp [Phase.next, h w (by simp), hw]
      rw [Bool.not_eq_true] at hw
      rw [hnext, ih hws, hw, Bool.false_or]

end Querent.Sql
