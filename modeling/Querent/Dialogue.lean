/-! Computations that ask questions and go on with the answers.

A dialogue is pure: it says what is asked and what is done with each answer, and nothing of who
answers. An answerer with a state runs it; so does any monad that has an answer to each question,
and so does one who has to ask others for the answers. -/
namespace Querent

/-- A computation of an `α` that asks questions `q : Q`, each answered by an `R q`. -/
inductive Dialogue (Q : Type) (R : Q → Type) (α : Type) where
  | done (a : α)
  | ask (q : Q) (next : R q → Dialogue Q R α)

namespace Dialogue

variable {Q : Type} {R : Q → Type} {α β σ : Type}

/-- One question; the answer is the result. -/
def question (q : Q) : Dialogue Q R (R q) := ask q done

def bind (d : Dialogue Q R α) (f : α → Dialogue Q R β) : Dialogue Q R β :=
  match d with
  | done a => f a
  | ask q next => ask q fun r => (next r).bind f

instance : Monad (Dialogue Q R) where
  pure := done
  bind := bind

/-- Runs a dialogue against an answerer that keeps a state. -/
def run (answer : (q : Q) → σ → R q × σ) : Dialogue Q R α → σ → α × σ
  | done a, s => (a, s)
  | ask q next, s =>
    let (r, s) := answer q s
    (next r).run answer s

/-- Runs a dialogue in a monad that answers. -/
def runIn {m : Type → Type} [Monad m] (answer : (q : Q) → m (R q)) : Dialogue Q R α → m α
  | done a => pure a
  | ask q next => do (next (← answer q)).runIn answer

/-- The dialogue of one who answers questions in person by a dialogue of another kind, keeping a
state from each question to the next. -/
def serve {Q' : Type} {R' : Q' → Type} (answer : (q : Q) → σ → Dialogue Q' R' (R q × σ)) :
    Dialogue Q R α → σ → Dialogue Q' R' (α × σ)
  | done a, s => done (a, s)
  | ask q next, s => (answer q s).bind fun (r, s) => (next r).serve answer s

/-- The same dialogue with each question put in other words. -/
def relay {Q' : Type} {R' : Q' → Type}
    (f : (q : Q) → Dialogue Q' R' (R q)) : Dialogue Q R α → Dialogue Q' R' α
  | done a => done a
  | ask q next => (f q).bind fun r => (next r).relay f

@[simp] theorem run_done (answer : (q : Q) → σ → R q × σ) (a : α) (s : σ) :
    (done a : Dialogue Q R α).run answer s = (a, s) := rfl

/-- A dialogue in two parts runs the second where the first has ended. -/
theorem run_bind (answer : (q : Q) → σ → R q × σ) (d : Dialogue Q R α)
    (f : α → Dialogue Q R β) (s : σ) :
    (d.bind f).run answer s = (f (d.run answer s).1).run answer (d.run answer s).2 := by
  induction d generalizing s with
  | done a => rfl
  | ask q next ih => exact ih _ _

end Dialogue

end Querent
