import Mathlib.Data.List.Forall2
import Mathlib.Tactic.Common
import Querent.Dialogue

/-! The exchanges of a dialogue: what it asks and what it is answered, in order, as far as it has
come. A path goes as far as one likes; what any answerer brings about is one to the end. A state may
go along with the exchanges, and two dialogues may go side by side. -/
namespace Querent.Dialogue

variable {Q : Type} {R : Q → Type} {α β σ : Type}

/-- A question and its answer. -/
abbrev Exchange (R : Q → Type) := (q : Q) × R q

/-- A dialogue goes through some exchanges and has then come to another. -/
inductive Path : Dialogue Q R α → List (Exchange R) → Dialogue Q R α → Prop
  | here {d : Dialogue Q R α} : Path d [] d
  | next {q : Q} {f : R q → Dialogue Q R α} {r : R q} {es : List (Exchange R)}
      {rest : Dialogue Q R α} (path : Path (f r) es rest) : Path (ask q f) (⟨q, r⟩ :: es) rest

/-- The exchanges of a dialogue with an answerer that keeps a state. -/
def history (answer : (q : Q) → σ → R q × σ) : Dialogue Q R α → σ → List (Exchange R)
  | done _, _ => []
  | ask q f, s => ⟨q, (answer q s).1⟩ :: (f (answer q s).1).history answer (answer q s).2

/-- Every question asked, whatever the answers, is one of some questions. -/
def Asks (P : Q → Prop) : Dialogue Q R α → Prop
  | done _ => True
  | ask q f => P q ∧ ∀ r, (f r).Asks P

variable {P : Q → Prop} {d rest : Dialogue Q R α} {f : α → Dialogue Q R β} {es : List (Exchange R)}
  {a : α} {q : Q}

theorem path_history (answer : (q : Q) → σ → R q × σ) (d : Dialogue Q R α) (s : σ) :
    Path d (d.history answer s) (done (d.run answer s).1) := by
  induction d generalizing s with
  | done a => exact .here
  | ask q f ih => exact .next (ih _ _)

theorem exists_answer_of_mem_history {answer : (q : Q) → σ → R q × σ} {d : Dialogue Q R α} {s : σ}
    {r : R q} (h : ⟨q, r⟩ ∈ d.history answer s) : ∃ s, r = (answer q s).1 := by
  induction d generalizing s with
  | done a => cases h
  | ask q f ih =>
    rcases List.mem_cons.1 h with hfirst | hrest
    · cases hfirst
      exact ⟨s, rfl⟩
    · exact ih _ hrest

theorem path_done : Path (done a : Dialogue Q R α) es rest ↔ es = [] ∧ rest = done a := by
  constructor
  · intro h
    cases h
    exact ⟨rfl, rfl⟩
  · rintro ⟨rfl, rfl⟩
    exact .here

/-- A dialogue that has come to its end asked its first question and went on with the answer. -/
theorem path_ask_done {f : R q → Dialogue Q R α} : Path (ask q f) es (done a) ↔
    ∃ r es', es = ⟨q, r⟩ :: es' ∧ Path (f r) es' (done a) := by
  constructor
  · intro h
    cases h with
    | next path => exact ⟨_, _, rfl, path⟩
  · rintro ⟨r, es', rfl, path⟩
    exact .next path

/-- One more answer. -/
theorem Path.concat {f : R q → Dialogue Q R α} (h : Path d es (ask q f)) (r : R q) :
    Path d (es ++ [⟨q, r⟩]) (f r) := by
  generalize hrest : ask q f = rest at h
  induction h with
  | here =>
    subst hrest
    exact .next .here
  | next _ ih => exact .next (ih hrest)

/-- Any dialogue comes to an end with some answers. -/
theorem Path.finish (some : ∀ q, Nonempty (R q)) (h : Path d es rest) :
    ∃ es' a, Path d (es ++ es') (done a) := by
  induction h with
  | @here d =>
    induction d with
    | done a => exact ⟨[], a, .here⟩
    | ask q f ih =>
      obtain ⟨r⟩ := some q
      obtain ⟨es', a, path⟩ := ih r
      exact ⟨⟨q, r⟩ :: es', a, .next path⟩
  | next _ ih =>
    obtain ⟨es', a, path⟩ := ih
    exact ⟨es', a, .next path⟩

/-- A dialogue in two parts is still in the first, or has ended it and gone on with the second. -/
theorem Path.of_bind {rest : Dialogue Q R β} (h : Path (d.bind f) es rest) :
    (∃ q g, Path d es (ask q g) ∧ rest = ask q fun r => (g r).bind f) ∨
      ∃ a es₁ es₂, es = es₁ ++ es₂ ∧ Path d es₁ (done a) ∧ Path (f a) es₂ rest := by
  induction d generalizing es with
  | done a => exact .inr ⟨a, [], es, rfl, .here, h⟩
  | ask q g ih =>
    cases h with
    | here => exact .inl ⟨q, g, .here, rfl⟩
    | @next _ _ r es _ path =>
      rcases ih r path with ⟨q', g', hpath, hrest⟩ | ⟨a, es₁, es₂, rfl, hfirst, hsecond⟩
      · exact .inl ⟨q', g', .next hpath, hrest⟩
      · exact .inr ⟨a, ⟨q, r⟩ :: es₁, es₂, rfl, .next hfirst, hsecond⟩

theorem Path.of_bind_done {b : β} (h : Path (d.bind f) es (done b)) :
    ∃ a es₁ es₂, es = es₁ ++ es₂ ∧ Path d es₁ (done a) ∧ Path (f a) es₂ (done b) := by
  rcases h.of_bind with ⟨q, g, -, hrest⟩ | hparts
  · cases hrest
  · exact hparts

theorem Asks.mono {P' : Q → Prop} (hd : d.Asks P) (h : ∀ q, P q → P' q) : d.Asks P' := by
  induction d with
  | done a => trivial
  | ask q f ih => exact ⟨h q hd.1, fun r => ih r (hd.2 r)⟩

theorem Asks.bind (hd : d.Asks P) (hf : ∀ a, (f a).Asks P) : (d.bind f).Asks P := by
  induction d with
  | done a => exact hf a
  | ask q g ih => exact ⟨hd.1, fun r => ih r (hd.2 r)⟩

theorem Asks.of_path (hd : d.Asks P) (h : Path d es rest) : (∀ e ∈ es, P e.1) ∧ rest.Asks P := by
  induction h with
  | here => exact ⟨by simp, hd⟩
  | next _ ih =>
    obtain ⟨hes, hrest⟩ := ih (hd.2 _)
    exact ⟨List.forall_mem_cons.2 ⟨hd.1, hes⟩, hrest⟩

section Relay

variable {Q' : Type} {R' : Q' → Type} {P' : Q' → Prop} {f : (q : Q) → Dialogue Q' R' (R q)}

/-- Put in other words, a dialogue asks what those words ask. -/
theorem Asks.relay (hf : ∀ q, (f q).Asks P') (d : Dialogue Q R α) : (d.relay f).Asks P' := by
  induction d with
  | done a => trivial
  | ask q next ih => exact (hf q).bind ih

/-- A dialogue that came to its end in other words came to it in its own, each answer being how its
question ended. -/
theorem Path.of_relay_done {es : List (Exchange R')} (h : Path (d.relay f) es (done a)) :
    ∃ (parts : List (List (Exchange R'))) (es' : List (Exchange R)), Path d es' (done a) ∧
      es = parts.flatten ∧ List.Forall₂ (fun e part => Path (f e.1) part (done e.2)) es' parts := by
  induction d generalizing es with
  | done b =>
    obtain ⟨rfl, hend⟩ := path_done.1 h
    cases hend
    exact ⟨[], [], .here, rfl, .nil⟩
  | ask q next ih =>
    obtain ⟨r, part, es, rfl, hfirst, hrest⟩ := Path.of_bind_done h
    obtain ⟨parts, es', hpath, rfl, hparts⟩ := ih r hrest
    exact ⟨part :: parts, ⟨q, r⟩ :: es', .next hpath, rfl, .cons hfirst hparts⟩

end Relay

/-- Where every question is answered regardless of the state, and without a change of it, so is the
whole. -/
theorem Asks.run_eq {answer answer' : (q : Q) → σ → R q × σ} (hd : d.Asks P)
    (h : ∀ q, P q → ∀ s s', answer q s = ((answer' q s').1, s)) (s s' : σ) :
    d.run answer s = ((d.run answer' s').1, s) := by
  induction d generalizing s s' with
  | done a => rfl
  | ask q f ih =>
    obtain ⟨hq, hrest⟩ := hd
    have hanswer := h q hq s s'
    unfold run
    rw [hanswer]
    exact ih _ (hrest _) _ _

/-! ### A state along the exchanges -/

/-- A state goes from exchange to exchange. -/
inductive Through (step : σ → Exchange R → σ → Prop) : σ → List (Exchange R) → σ → Prop
  | nil (s : σ) : Through step s [] s
  | cons {s s' s'' : σ} {e : Exchange R} {es : List (Exchange R)} (first : step s e s')
      (rest : Through step s' es s'') : Through step s (e :: es) s''

namespace Through

variable {step : σ → Exchange R → σ → Prop} {s s' s'' : σ} {es₁ es₂ : List (Exchange R)}

theorem of_append (h : Through step s (es₁ ++ es₂) s'') :
    ∃ s', Through step s es₁ s' ∧ Through step s' es₂ s'' := by
  induction es₁ generalizing s with
  | nil => exact ⟨s, .nil s, h⟩
  | cons e es₁ ih =>
    cases h with
    | cons first rest =>
      obtain ⟨s', hfirst, hrest⟩ := ih rest
      exact ⟨s', .cons first hfirst, hrest⟩

/-- What each exchange keeps, all of them keep. -/
theorem keeps {I : σ → Prop} (h : Through step s es s')
    (hstep : ∀ s e s', step s e s' → I s → I s') (hs : I s) : I s' := by
  induction h with
  | nil => exact hs
  | cons first _ ih => exact ih (hstep _ _ _ first hs)

theorem eq_of_forall (h : Through step s es s')
    (hstep : ∀ e ∈ es, ∀ s s', step s e s' → s' = s) : s' = s := by
  induction h with
  | nil => rfl
  | cons first _ ih =>
    obtain ⟨hfirst, hrest⟩ := List.forall_mem_cons.1 hstep
    rw [ih hrest, hfirst _ _ first]

end Through

/-! ### Two dialogues side by side -/

/-- Two dialogues that ask like questions, go on alike after like answers, and end alike. -/
inductive Twins (question : Q → Q → Prop) (exchange : Exchange R → Exchange R → Prop)
    (ending : α → β → Prop) : Dialogue Q R α → Dialogue Q R β → Prop
  | ends {a : α} {b : β} (alike : ending a b) : Twins question exchange ending (done a) (done b)
  | asks {q q' : Q} {f : R q → Dialogue Q R α} {f' : R q' → Dialogue Q R β} (alike : question q q')
      (next : ∀ r r', exchange ⟨q, r⟩ ⟨q', r'⟩ → Twins question exchange ending (f r) (f' r')) :
      Twins question exchange ending (ask q f) (ask q' f')

namespace Twins

variable {question : Q → Q → Prop} {exchange : Exchange R → Exchange R → Prop}
  {ending : α → β → Prop} {d : Dialogue Q R α} {d' : Dialogue Q R β} {es' : List (Exchange R)}
  {b : β}

theorem bind {γ δ : Type} {ending' : γ → δ → Prop} {f : α → Dialogue Q R γ}
    {f' : β → Dialogue Q R δ} (h : Twins question exchange ending d d')
    (hf : ∀ a b, ending a b → Twins question exchange ending' (f a) (f' b)) :
    Twins question exchange ending' (d.bind f) (d'.bind f') := by
  induction h with
  | ends alike => exact hf _ _ alike
  | asks alike _ ih => exact .asks alike ih

/-- A dialogue is its own twin where each of its questions is answered in one way only. -/
theorem refl {d : Dialogue Q R α} (hd : d.Asks P) (hsame : ∀ q, question q q)
    (hP : ∀ q, P q → ∀ r r', exchange ⟨q, r⟩ ⟨q, r'⟩ → r = r') :
    Twins question exchange Eq d d := by
  induction d with
  | done a => exact .ends rfl
  | ask q f ih =>
    obtain ⟨hq, hrest⟩ := hd
    refine .asks (hsame q) fun r r' halike => ?_
    obtain rfl := hP q hq r r' halike
    exact ih r (hrest r)

/-- Where like questions are given like answers, twins go side by side to like ends. -/
theorem path (h : Twins question exchange ending d d') (hd : Path d es (done a))
    (hd' : Path d' es' (done b))
    (hes : ∀ p ∈ es.zip es', question p.1.1 p.2.1 → exchange p.1 p.2) :
    List.Forall₂ exchange es es' ∧ ending a b := by
  induction h generalizing es es' with
  | ends alike =>
    obtain ⟨rfl, ha⟩ := path_done.1 hd
    obtain ⟨rfl, hb⟩ := path_done.1 hd'
    cases ha
    cases hb
    exact ⟨.nil, alike⟩
  | asks alike _ ih =>
    obtain ⟨r, es, rfl, hrest⟩ := path_ask_done.1 hd
    obtain ⟨r', es', rfl, hrest'⟩ := path_ask_done.1 hd'
    rw [List.zip_cons_cons, List.forall_mem_cons] at hes
    have hfirst := hes.1 alike
    obtain ⟨hall, hend⟩ := ih r r' hfirst hrest hrest' hes.2
    exact ⟨.cons hfirst hall, hend⟩

/-- Answerers that answer like questions alike, from like states to like states, bring twins to like
ends. -/
theorem run {answer answer' : (q : Q) → σ → R q × σ} {same : σ → σ → Prop} {s s' : σ}
    (h : Twins question exchange ending d d') (hd : d.Asks P)
    (hanswer : ∀ q q' s s', P q → question q q' → same s s' →
      exchange ⟨q, (answer q s).1⟩ ⟨q', (answer' q' s').1⟩ ∧ same (answer q s).2 (answer' q' s').2)
    (hs : same s s') : List.Forall₂ exchange (d.history answer s) (d'.history answer' s') ∧
      ending (d.run answer s).1 (d'.run answer' s').1 ∧
      same (d.run answer s).2 (d'.run answer' s').2 := by
  induction h generalizing s s' with
  | ends alike => exact ⟨.nil, alike, hs⟩
  | asks alike _ ih =>
    obtain ⟨hexchange, hnext⟩ := hanswer _ _ s s' hd.1 alike hs
    obtain ⟨hall, hend, hlast⟩ := ih _ _ hexchange (hd.2 _) hnext
    exact ⟨.cons hexchange hall, hend, hlast⟩

end Twins

end Querent.Dialogue
