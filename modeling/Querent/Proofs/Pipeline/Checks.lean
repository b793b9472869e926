import Querent.Pipeline.Basic
import Querent.Proofs.Dialogue

/-! What stands before a request: the checks, each with the answers it passes and fails on. A request
is created exactly if every check passes and the store takes it. -/
namespace Querent.Pipeline

open Dialogue

/-- A call and its answer. -/
abbrev Event := Exchange Call.Reply

/-- Which part of a request a call belongs to. -/
inductive Part where
  | check
  | stage
  | ending
  | reading
deriving DecidableEq

def Call.part : Call → Part
  | allow _ | isOwner _ _ | dataSource _ | create _ _ _ => .check
  | snapshot _ | model _ | execute _ _ _ => .stage
  | complete _ _ | freshResponse => .ending
  | find _ _ | latest _ | list _ _ => .reading

variable {α β : Type} {user workspace : Int} {prompt : String} {es : List Event}

/-! ### Steps -/

theorem path_question {q : Call} {g : q.Reply → α} {x : α} :
    Path (ask q fun r => done (g r) : Course α) es (done x) ↔ ∃ r, es = [⟨q, r⟩] ∧ g r = x := by
  rw [path_ask_done]
  refine exists_congr fun r => ?_
  simp only [path_done, Dialogue.done.injEq]
  constructor
  · rintro ⟨es', rfl, rfl, hx⟩
    exact ⟨rfl, hx.symm⟩
  · rintro ⟨rfl, rfl⟩
    exact ⟨[], rfl, rfl, rfl⟩

/-- A step and what follows it: the error of the step ends them, and what follows goes on with its
result. -/
theorem path_step_bind {x : Step α} {f : α → Step β} {b : Except Error β}
    (h : Path (x >>= f).run es (done b)) :
    (∃ e, b = .error e ∧ Path x.run es (done (.error e))) ∨
      ∃ a es₁ es₂, es = es₁ ++ es₂ ∧ Path x.run es₁ (done (.ok a)) ∧ Path (f a).run es₂ (done b) := by
  obtain ⟨r, es₁, es₂, rfl, hfirst, hsecond⟩ := Path.of_bind_done h
  cases r with
  | error e =>
    obtain ⟨rfl, hb⟩ := path_done.1 hsecond
    rw [List.append_nil]
    exact .inl ⟨e, by simpa using hb, hfirst⟩
  | ok a => exact .inr ⟨a, es₁, es₂, rfl, hfirst, hsecond⟩

theorem path_allow {x : Except Error Unit} (h : Path (Step.allow workspace).run es (done x)) :
    (es = [⟨.allow workspace, true⟩] ∧ x = .ok ()) ∨
      es = [⟨.allow workspace, false⟩] ∧ x = .error (.rateLimited workspace) := by
  have hrun : (Step.allow workspace).run = ask (.allow workspace) fun b : Bool =>
      done (if b then .ok () else .error (.rateLimited workspace)) := by
    refine congrArg (ask _) (funext fun b => ?_)
    cases b <;> rfl
  rw [hrun, path_question] at h
  obtain ⟨b, rfl, rfl⟩ := h
  cases b
  · exact .inr ⟨rfl, rfl⟩
  · exact .inl ⟨rfl, rfl⟩

theorem path_checkOwner {x : Except Error Unit}
    (h : Path (checkOwner user workspace).run es (done x)) :
    (es = [⟨.isOwner user workspace, .ok true⟩] ∧ x = .ok ()) ∨
      ∃ e, x = .error e ∧
        (es = [⟨.isOwner user workspace, .ok false⟩] ∨ es = [⟨.isOwner user workspace, .error e⟩]) := by
  have hrun : (checkOwner user workspace).run = ask (.isOwner user workspace)
      fun r : Except Error Bool => done (r.bind fun b =>
        if b then .ok () else .error (.notFound "Workspace not found")) := by
    refine congrArg (ask _) (funext fun r => ?_)
    rcases r with e | _ | _ <;> rfl
  rw [hrun, path_question] at h
  obtain ⟨r, rfl, rfl⟩ := h
  rcases r with e | _ | _
  · exact .inr ⟨e, rfl, .inr rfl⟩
  · exact .inr ⟨_, rfl, .inl rfl⟩
  · exact .inl ⟨rfl, rfl⟩

theorem path_connectionOf {x : Except Error Connection}
    (h : Path (connectionOf workspace).run es (done x)) :
    (∃ source c, es = [⟨.dataSource workspace, .ok (some source)⟩] ∧ x = .ok c ∧
      Connection.ofJson source.dialect source.config = .ok c) ∨
      ∃ e, x = .error e ∧ (es = [⟨.dataSource workspace, .ok none⟩] ∨
        es = [⟨.dataSource workspace, .error e⟩] ∨
        ∃ source, es = [⟨.dataSource workspace, .ok (some source)⟩] ∧
          Connection.ofJson source.dialect source.config = .error e) := by
  have hrun : (connectionOf workspace).run = ask (.dataSource workspace)
      fun r : Except Error (Option DataSource) => done (r.bind fun source? =>
        source?.elim (.error (.notFound "Data source not configured"))
          fun source => Connection.ofJson source.dialect source.config) := by
    refine congrArg (ask _) (funext fun r => ?_)
    rcases r with e | _ | source <;> rfl
  rw [hrun, path_question] at h
  obtain ⟨r, rfl, rfl⟩ := h
  rcases r with e | _ | source
  · exact .inr ⟨e, rfl, .inr (.inl rfl)⟩
  · exact .inr ⟨_, rfl, .inl rfl⟩
  · cases hc : Connection.ofJson source.dialect source.config with
    | error e => exact .inr ⟨e, hc, .inr (.inr ⟨source, rfl, hc⟩)⟩
    | ok c => exact .inl ⟨source, c, rfl, hc, hc⟩

/-! ### The checks together -/

/-- The limiter, a check or the store is against a request. -/
inductive Refused (user workspace : Int) (prompt : String) (es : List Event) : Prop
  | limited (h : ⟨.allow workspace, false⟩ ∈ es)
  | prompt (e : Error) (h : checkPrompt prompt = .error e)
  | stranger (h : ⟨.isOwner user workspace, .ok false⟩ ∈ es)
  | ownerUnknown (e : Error) (h : ⟨.isOwner user workspace, .error e⟩ ∈ es)
  | noSource (h : ⟨.dataSource workspace, .ok none⟩ ∈ es)
  | sourceUnknown (e : Error) (h : ⟨.dataSource workspace, .error e⟩ ∈ es)
  | badSource (source : DataSource) (e : Error) (h : ⟨.dataSource workspace, .ok (some source)⟩ ∈ es)
      (invalid : Connection.ofJson source.dialect source.config = .error e)
  | unstored (e : Error) (h : ⟨.create user workspace prompt, .error e⟩ ∈ es)

/-- No request is stored. -/
def Uncreated (es : List Event) : Prop :=
  ∀ user workspace prompt r, ⟨.create user workspace prompt, .ok r⟩ ∉ es

/-- The answers that let a request be created. -/
def passed (user workspace : Int) (prompt : String) (source : DataSource) (r : Request) :
    List Event :=
  [⟨.allow workspace, true⟩, ⟨.isOwner user workspace, .ok true⟩,
    ⟨.dataSource workspace, .ok (some source)⟩, ⟨.create user workspace prompt, .ok r⟩]

theorem path_checkPrompt {x : Except Error Unit}
    (h : Path (ExceptT.mk (pure (checkPrompt prompt)) : Step Unit).run es (done x)) :
    es = [] ∧ x = checkPrompt prompt := by
  obtain ⟨rfl, hx⟩ := path_done.1 h
  exact ⟨rfl, by simpa using hx⟩

theorem path_store {x : Except Error Request}
    (h : Path (Step.create user workspace prompt).run es (done x)) :
    es = [⟨.create user workspace prompt, x⟩] := by
  obtain ⟨r, rfl, rfl⟩ := path_question.1 h
  rfl

theorem path_opened {x : Except Error (Connection × Request)}
    (h : Path (opened user workspace prompt).run es (done x)) :
    (∃ source c r, checkPrompt prompt = .ok () ∧
      Connection.ofJson source.dialect source.config = .ok c ∧
      es = passed user workspace prompt source r ∧ x = .ok (c, r)) ∨
    ∃ e, x = .error e ∧ Refused user workspace prompt es ∧ Uncreated es := by
  unfold opened at h
  -- limiter, prompt, owner, database, store: each ends the checks or hands on to the next
  rcases path_step_bind h with ⟨e, rfl, hfail⟩ | ⟨_, _, _, rfl, hallow, hafter⟩
  · obtain ⟨-, hx⟩ | ⟨rfl, -⟩ := path_allow hfail
    · cases hx
    · exact .inr ⟨e, rfl, .limited (by simp), by simp [Uncreated]⟩
  obtain ⟨rfl, -⟩ | ⟨-, hx⟩ := path_allow hallow
  swap
  · cases hx
  rcases path_step_bind hafter with ⟨e, rfl, hfail⟩ | ⟨_, _, _, rfl, hprompt, hchecked⟩
  · obtain ⟨rfl, hx⟩ := path_checkPrompt hfail
    exact .inr ⟨e, rfl, .prompt e hx.symm, by simp [Uncreated]⟩
  obtain ⟨rfl, hpassed⟩ := path_checkPrompt hprompt
  rcases path_step_bind hchecked with ⟨e, rfl, hfail⟩ | ⟨_, _, _, rfl, howner, howned⟩
  · obtain ⟨-, hx⟩ | ⟨e', -, rfl | rfl⟩ := path_checkOwner hfail
    · cases hx
    · exact .inr ⟨e, rfl, .stranger (by simp), by simp [Uncreated]⟩
    · exact .inr ⟨e, rfl, .ownerUnknown e' (by simp), by simp [Uncreated]⟩
  obtain ⟨rfl, -⟩ | ⟨e', hx, -⟩ := path_checkOwner howner
  swap
  · cases hx
  rcases path_step_bind howned with ⟨e, rfl, hfail⟩ | ⟨c, _, _, rfl, hsource, hconnected⟩
  · obtain ⟨source, c, -, hx, -⟩ | ⟨e', -, rfl | rfl | ⟨source, rfl, hc⟩⟩ :=
      path_connectionOf hfail
    · cases hx
    · exact .inr ⟨e, rfl, .noSource (by simp), by simp [Uncreated]⟩
    · exact .inr ⟨e, rfl, .sourceUnknown e' (by simp), by simp [Uncreated]⟩
    · exact .inr ⟨e, rfl, .badSource source e' (by simp) hc, by simp [Uncreated]⟩
  obtain ⟨source, c', rfl, hx, hc⟩ | ⟨e', hx, -⟩ := path_connectionOf hsource
  swap
  · cases hx
  cases hx
  rcases path_step_bind hconnected with ⟨e, rfl, hfail⟩ | ⟨r, _, _, rfl, hcreate, hstored⟩
  · obtain rfl := path_store hfail
    exact .inr ⟨e, rfl, .unstored e (by simp), by simp [Uncreated]⟩
  obtain rfl := path_store hcreate
  obtain ⟨rfl, hx⟩ := path_done.1 hstored
  exact .inl ⟨source, c, r, hpassed.symm, hc, rfl, by simpa using hx⟩

theorem asks_step_bind {P : Call → Prop} {x : Step α} {f : α → Step β} (hx : x.run.Asks P)
    (hf : ∀ a, (f a).run.Asks P) : (x >>= f).run.Asks P := by
  refine Asks.bind hx fun r => ?_
  cases r with
  | error e => trivial
  | ok a => exact hf a

theorem opened_asks : (opened user workspace prompt).run.Asks (·.part = .check) := by
  unfold opened
  refine asks_step_bind ⟨rfl, fun b => ?_⟩ fun _ => ?_
  · cases b <;> trivial
  refine asks_step_bind trivial fun _ => ?_
  refine asks_step_bind ⟨rfl, fun r => ?_⟩ fun _ => ?_
  · rcases r with e | _ | _ <;> trivial
  refine asks_step_bind ⟨rfl, fun r => ?_⟩ fun _ => ?_
  · rcases r with e | _ | source <;> trivial
  exact asks_step_bind ⟨rfl, fun _ => trivial⟩ fun _ => trivial

theorem reply_nonempty (q : Call) : Nonempty q.Reply := by
  cases q with
  | allow => exact ⟨true⟩
  | freshResponse => exact ⟨""⟩
  | execute => exact ⟨.ok []⟩
  | _ => exact ⟨.error (.notFound "")⟩

/-- As long as a check is to come, nothing is created. -/
theorem path_opened_ask {q : Call} {next : q.Reply → Course (Except Error (Connection × Request))}
    (h : Path (opened user workspace prompt).run es (ask q next)) :
    Uncreated es := by
  obtain ⟨reply⟩ := reply_nonempty q
  obtain ⟨es', x, hwhole⟩ := (h.concat reply).finish reply_nonempty
  rw [List.append_assoc] at hwhole
  intro u w p r hr
  obtain ⟨source, c, r', -, -, hes, -⟩ | ⟨-, -, -, hnone⟩ := path_opened hwhole
  · -- the creation is the last of the checks
    have hbefore : ⟨.create u w p, .ok r⟩ ∈
        (passed user workspace prompt source r').dropLast := by
      rw [← hes, List.dropLast_append_of_ne_nil (by simp)]
      exact List.mem_append_left _ hr
    simp [passed] at hbefore
  · exact hnone u w p r (List.mem_append_left _ hr)

end Querent.Pipeline
