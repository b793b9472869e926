import Querent.Proofs.Command.Renaming

/-! A run that has a stored catalogue named, step by step: it loads the catalogue, asks for each table,
and saves the names. -/
namespace Querent

namespace Dialogue

variable {Q Q' Q'' : Type} {R : Q → Type} {R' : Q' → Type} {R'' : Q'' → Type} {α β γ : Type}

theorem bind_done (d : Dialogue Q R α) : d.bind done = d := by
  induction d with
  | done a => rfl
  | ask q next ih => exact congrArg (ask q) (funext ih)

theorem bind_assoc (d : Dialogue Q R α) (f : α → Dialogue Q R β) (g : β → Dialogue Q R γ) :
    (d.bind f).bind g = d.bind fun a => (f a).bind g := by
  induction d with
  | done a => rfl
  | ask q next ih => exact congrArg (ask q) (funext ih)

theorem relay_bind (f : (q : Q) → Dialogue Q' R' (R q)) (d : Dialogue Q R α)
    (g : α → Dialogue Q R β) : (d.bind g).relay f = (d.relay f).bind fun a => (g a).relay f := by
  induction d with
  | done a => rfl
  | ask q next ih =>
    show (f q).bind (fun r => ((next r).bind g).relay f) = _
    rw [funext ih]
    exact (bind_assoc _ _ _).symm

theorem relay_question (f : (q : Q) → Dialogue Q' R' (R q)) (q : Q) : (question q).relay f = f q :=
  bind_done (f q)

theorem relay_relay (f : (q : Q) → Dialogue Q' R' (R q)) (g : (q : Q') → Dialogue Q'' R'' (R' q))
    (d : Dialogue Q R α) : (d.relay f).relay g = d.relay fun q => (f q).relay g := by
  induction d with
  | done a => rfl
  | ask q next ih =>
    show ((f q).bind fun r => (next r).relay f).relay g = _
    rw [relay_bind, funext ih]
    rfl

/-- A dialogue in two parts goes through the second where it has ended the first. -/
theorem Path.bind {d : Dialogue Q R α} {f : α → Dialogue Q R β} {rest : Dialogue Q R β} {a : α}
    {es es' : List (Exchange R)} (h : Path d es (done a)) (hf : Path (f a) es' rest) :
    Path (d.bind f) (es ++ es') rest := by
  generalize hlast : done a = last at h
  induction h with
  | here =>
    subst hlast
    exact hf
  | next _ ih => exact .next (ih hlast)

end Dialogue

namespace Naming

open Dialogue (Path Exchange)

inductive Step where
  | load (workspace : Int)
  | ask (a : Llm.Ask)
  | save (x : Snapshot)

abbrev Step.Reply : Step → Type
  | load _ => Except Error Snapshot
  | ask _ => Except Error String
  | save _ => Except Error Unit

/-- Has the stored catalogue of a workspace named, and stores the names. -/
def rename (w : Int) : Dialogue Step Step.Reply (Except Error Unit) :=
  .ask (.load w) fun
    | .error e => .done (.error e)
    | .ok x => ((nameSnapshot x).relay fun a => .question (.ask a)).bind fun y =>
      .question (Step.save y.1)

/-- A step in a session. -/
def Step.work (settings : Settings) (session : Nat) : (q : Step) → Command.Work q.Reply
  | load w => .ofTalk (Catalog.load session w).run
  | ask a => .ofExchange (Llm.Client.complete settings.model a)
  | save x => .ofTalk (Catalog.saveNames session x).run

/-- The command is such a run in a session of its own. -/
theorem nameStored_eq (settings : Settings) (url : String) (w : Int) :
    Command.nameStored settings url w = (Command.openDatabase url).bind fun
      | .error f => .done (.failure f.message)
      | .ok session => ((rename w).relay (Step.work settings session)).bind fun
        | .ok () => .done (.success "")
        | .error e => .done (.failure e.message) := by
  refine congrArg (Command.openDatabase url).bind (funext fun opened => ?_)
  cases opened with
  | error f => rfl
  | ok session =>
    show (Command.Work.ofTalk (Catalog.load session w).run).bind _ =
      (((Step.load w).work settings session).bind _).bind _
    rw [Dialogue.bind_assoc]
    refine congrArg (Dialogue.bind _) (funext fun loaded => ?_)
    cases loaded with
    | error e => rfl
    | ok x =>
      have hnames : (((nameSnapshot x).relay fun a => .question (Step.ask a)).relay
          (Step.work settings session)) = (nameSnapshot x).relay fun a =>
            Command.Work.ofExchange (Llm.Client.complete settings.model a) := by
        rw [Dialogue.relay_relay]
        simp only [Dialogue.relay_question]
        rfl
      show (((nameSnapshot x).relay _).bind _).bind _ =
        ((((nameSnapshot x).relay _).bind _).relay (Step.work settings session)).bind _
      rw [Dialogue.relay_bind, hnames, Dialogue.bind_assoc, Dialogue.bind_assoc]
      refine congrArg (Dialogue.bind _) (funext fun y => ?_)
      rw [Dialogue.relay_question]
      show ((Step.save y.1).work settings session).bind _ = _
      refine congrArg (Dialogue.bind _) (funext fun saved => ?_)
      cases saved <;> rfl

/-! ### What a run does -/

def Step.asked (e : Asked) : Exchange Step.Reply :=
  ⟨.ask e.1, e.2⟩

theorem path_relay_ask {α : Type} {d : ModelDialogue α} {es : List (Exchange Step.Reply)} {a : α}
    (h : Path (d.relay fun a => .question (Step.ask a)) es (.done a)) :
    ∃ asks : List Asked, es = asks.map Step.asked ∧ Path d asks (.done a) := by
  induction d generalizing es with
  | done b =>
    obtain ⟨rfl, hend⟩ := Dialogue.path_done.1 h
    cases hend
    exact ⟨[], rfl, .here⟩
  | ask q next ih =>
    obtain ⟨r, es, rfl, hrest⟩ := Dialogue.path_ask_done.1 h
    obtain ⟨asks, rfl, hpath⟩ := ih r hrest
    exact ⟨⟨q, r⟩ :: asks, rfl, .next hpath⟩

/-- A run that comes to a good end loads, asks once for each table and saves what it has loaded after
the answers. -/
theorem path_rename {w : Int} {es : List (Exchange Step.Reply)} {u : Unit}
    (h : Path (rename w) es (.done (.ok u))) :
    ∃ (x : Snapshot) (asks : List Asked), es = ⟨.load w, .ok x⟩ :: (asks.map Step.asked ++
        [⟨.save (x.afterAnswers (asks.map (·.2))), .ok u⟩]) ∧
      asks.length = x.tables.length := by
  obtain ⟨loaded, es, rfl, hrest⟩ := Dialogue.path_ask_done.1 h
  cases loaded with
  | error e =>
    obtain ⟨-, hend⟩ := Dialogue.path_done.1 hrest
    cases hend
  | ok x =>
    obtain ⟨⟨y, n⟩, first, last, rfl, hnames, hsave⟩ := hrest.of_bind_done
    obtain ⟨asks, rfl, hpath⟩ := path_relay_ask hnames
    obtain ⟨hlength, rfl, -, -⟩ := path_nameSnapshot hpath
    obtain ⟨saved, last, rfl, hend⟩ := Dialogue.path_ask_done.1 hsave
    obtain ⟨rfl, hsaved⟩ := Dialogue.path_done.1 hend
    cases hsaved
    exact ⟨x, asks, rfl, hlength⟩

/-! ### Any answers make a run -/

theorem path_suggest (t : Table) (keys : List ForeignKey) (answer : Except Error String) :
    Path (suggest t keys) [⟨Prompt.askNames t keys, answer⟩] (.done (answer.bind parse)) := by
  cases answer <;> exact .next .here

theorem path_nameTables_of (keys : List ForeignKey) {ts : List Table}
    {answers : List (Except Error String)} (h : answers.length = ts.length) :
    ∃ n, Path (nameTables keys ts) (asksOf keys ts answers)
      (.done (List.zipWith afterAnswer ts answers, n)) := by
  induction ts generalizing answers with
  | nil => exact ⟨0, .here⟩
  | cons t ts ih =>
    cases answers with
    | nil => simp at h
    | cons answer answers =>
      obtain ⟨n, hrest⟩ := ih (by simpa using h)
      have hfirst := path_suggest t keys answer
      cases hs : answer.bind parse with
      | ok s =>
        rw [hs] at hfirst
        refine ⟨n + 1, hfirst.bind ?_⟩
        have hall := hrest.bind (f := fun rest => .done (improve t s :: rest.1, rest.2 + 1)) .here
        rw [List.append_nil] at hall
        rw [List.zipWith_cons_cons, afterAnswer, hs]
        exact hall
      | error e =>
        rw [hs] at hfirst
        refine ⟨n, hfirst.bind ?_⟩
        have hall := hrest.bind (f := fun rest => .done (t :: rest.1, rest.2)) .here
        rw [List.append_nil] at hall
        rw [List.zipWith_cons_cons, afterAnswer, hs]
        exact hall

theorem path_nameSnapshot_of {x : Snapshot} {answers : List (Except Error String)}
    (h : answers.length = x.tables.length) :
    ∃ n, Path (nameSnapshot x) (asksOf x.foreignKeys x.tables answers)
      (.done (x.afterAnswers answers, n)) := by
  obtain ⟨n, hnames⟩ := path_nameTables_of x.foreignKeys h
  have hall := hnames.bind (f := fun named => .done ({ x with tables := named.1 }, named.2)) .here
  rw [List.append_nil] at hall
  exact ⟨n, hall⟩

theorem path_relay_of {α : Type} {d : ModelDialogue α} {asks : List Asked} {a : α}
    (h : Path d asks (.done a)) :
    Path (d.relay fun a => .question (Step.ask a)) (asks.map Step.asked) (.done a) := by
  induction d generalizing asks with
  | done b =>
    obtain ⟨rfl, hend⟩ := Dialogue.path_done.1 h
    cases hend
    exact .here
  | ask q next ih =>
    obtain ⟨r, asks, rfl, hrest⟩ := Dialogue.path_ask_done.1 h
    exact .next (ih r hrest)

/-- Whatever is loaded and answered, there is a run that comes to a good end with it. -/
theorem path_rename_of (w : Int) {x : Snapshot} {answers : List (Except Error String)}
    (h : answers.length = x.tables.length) :
    Path (rename w) (⟨.load w, .ok x⟩ ::
      ((asksOf x.foreignKeys x.tables answers).map Step.asked ++
        [⟨.save (x.afterAnswers answers), .ok ()⟩])) (.done (.ok ())) := by
  obtain ⟨n, hsnapshot⟩ := path_nameSnapshot_of h
  exact .next ((path_relay_of hsnapshot).bind (.next .here))

end Naming

end Querent
