import Querent.Proofs.Pipeline.Checks

/-! What the stages of a request call, whatever they are answered. A statement is executed only as the
guard gave it, on the catalogue and the connection of the workspace, and the number of calls has its
bounds. -/
namespace Querent.Pipeline

open Dialogue

variable {o : Options} {s : Snapshot} {c : Connection} {user workspace id : Int} {prompt : String}
  {es : List Event}

def isExecution (e : Event) : Bool :=
  match e.1 with
  | .execute _ _ _ => true
  | _ => false

def isModel (e : Event) : Bool :=
  match e.1 with
  | .model _ => true
  | _ => false

/-- A statement as the guard gave it for a catalogue and a connection is executed there. -/
def Guarded (o : Options) (s : Snapshot) (c : Connection) (e : Event) : Prop :=
  ∃ candidate sql r, Guard.validate s.foreignKeys
      { dialect := c.dialect, allowedSchemas := some s.schemas
        forceLimit := o.forceLimit, forbidFreeJoins := o.forbidFreeJoins } candidate = .ok sql ∧
    e = ⟨.execute c sql o.queryTimeoutMs, r⟩

/-- The model is asked to repair a statement. -/
def Repair (s : Snapshot) (prompt : String) (e : Event) : Prop :=
  ∃ previous feedback r,
    e = ⟨.model (Prompt.askRepair prompt previous feedback s.tables s.foreignKeys), r⟩

/-- The calls of all attempts at rows. -/
structure Tries (o : Options) (s : Snapshot) (c : Connection) (prompt : String) (es : List Event) :
    Prop where
  calls : ∀ e ∈ es, Guarded o s c e ∨ Repair s prompt e
  executions : es.countP isExecution ≤ if o.repairs then 2 else 1
  repairs : es.countP isModel ≤ if o.repairs then 1 else 0

/-- No execution brings rows. -/
def NoRows (es : List Event) : Prop :=
  ∀ c sql timeoutMs rows, ⟨.execute c sql timeoutMs, .ok rows⟩ ∉ es

/-- The calls of the stages. The model describes rows exactly if an execution brought some. -/
inductive Staged (o : Options) (workspace : Int) (c : Connection) (prompt : String) :
    List Event → Prop
  | unread (e : Error) : Staged o workspace c prompt [⟨.snapshot workspace, .error e⟩]
  | failed {s : Snapshot} {tries : List Event} (answer : Except Error String)
      (tried : Tries o s c prompt tries) (none : NoRows tries) :
      Staged o workspace c prompt
        (⟨.snapshot workspace, .ok s⟩ ::
          ⟨.model (Prompt.askStatement prompt s.tables s.foreignKeys), answer⟩ :: tries)
  | described {s : Snapshot} {tries : List Event} {sql : String} {rows : List Record}
      (answer summary graph : Except Error String) (tried : Tries o s c prompt tries)
      (some : ⟨.execute c sql o.queryTimeoutMs, .ok rows⟩ ∈ tries) :
      Staged o workspace c prompt
        (⟨.snapshot workspace, .ok s⟩ ::
          ⟨.model (Prompt.askStatement prompt s.tables s.foreignKeys), answer⟩ :: tries ++
          [⟨.model (Prompt.askSummary (process o.budget s.uniqueNames rows).rows), summary⟩,
            ⟨.model (Prompt.askGraph (process o.budget s.uniqueNames rows).rows), graph⟩])

/-! ### Attempts -/

/-- A result is what an execution among some calls brought. -/
def Brought {ε : Type} (o : Options) (c : Connection) (es : List Event)
    (x : Except ε (String × List Record)) : Prop :=
  ∀ sql rows, x = .ok (sql, rows) ↔ ⟨.execute c sql o.queryTimeoutMs, .ok rows⟩ ∈ es

theorem isModel_of_guarded {e : Event} (h : Guarded o s c e) : isModel e = false := by
  obtain ⟨_, _, _, -, rfl⟩ := h
  rfl

theorem countP_isModel_of_guarded (h : ∀ e ∈ es, Guarded o s c e) : es.countP isModel = 0 :=
  List.countP_eq_zero.2 fun e he => by simp [isModel_of_guarded (h e he)]

/-- An attempt executes at most once what the guard gives, and brings the rows that this brings. -/
theorem path_attempt {text : String} {x : Except Fault (String × List Record)}
    (h : Path (attempt o s c text) es (done x)) :
    (∀ e ∈ es, Guarded o s c e) ∧ es.length ≤ 1 ∧ Brought o c es x := by
  unfold attempt at h
  split at h
  next v hv =>
    obtain ⟨rfl, hx⟩ := path_done.1 h
    cases hx
    exact ⟨by simp, by simp, by simp [Brought]⟩
  next sql hsql =>
    obtain ⟨r, es', rfl, hafter⟩ := path_ask_done.1 h
    have hguarded : Guarded o s c ⟨.execute c sql o.queryTimeoutMs, r⟩ := ⟨text, sql, r, hsql, rfl⟩
    cases r with
    | error f =>
      obtain ⟨rfl, hx⟩ := path_done.1 hafter
      cases hx
      refine ⟨by simpa using hguarded, by simp, fun sql' rows => ?_⟩
      simp
    | ok rows =>
      obtain ⟨rfl, hx⟩ := path_done.1 hafter
      cases hx
      refine ⟨by simpa using hguarded, by simp, fun sql' rows' => ?_⟩
      have hsame : (sql = sql' ∧ rows = rows') ↔ (sql' = sql ∧ rows' = rows) :=
        and_congr eq_comm eq_comm
      simpa using hsame

theorem path_repaired {previous feedback : String} {x : Option String}
    (h : Path (repaired s prompt previous feedback) es (done x)) :
    ∃ e, es = [e] ∧ Repair s prompt e := by
  obtain ⟨r, es', rfl, hafter⟩ := path_ask_done.1 h
  have hnil : es' = [] := by cases r <;> exact (path_done.1 hafter).1
  subst hnil
  exact ⟨_, rfl, previous, feedback, r, rfl⟩

/-- After a fault the model may bring one more candidate. -/
theorem path_again {previous : String} {fault : Fault} {x : Except Failure (String × List Record)}
    (h : Path ((repaired s prompt previous fault.feedback).bind fun
      | some better => (attempt o s c better).bind fun r => done (r.mapError Fault.failure)
      | none => done (.error fault.failure)) es (done x)) :
    ∃ e es', es = e :: es' ∧ Repair s prompt e ∧ (∀ e ∈ es', Guarded o s c e) ∧ es'.length ≤ 1 ∧
      Brought o c es' x := by
  obtain ⟨better, es₁, es₂, rfl, hrepaired, hafter⟩ := h.of_bind_done
  obtain ⟨e, rfl, hrepair⟩ := path_repaired hrepaired
  refine ⟨e, es₂, rfl, hrepair, ?_⟩
  cases better with
  | none =>
    obtain ⟨rfl, hx⟩ := path_done.1 hafter
    cases hx
    exact ⟨by simp, by simp, by simp [Brought]⟩
  | some better =>
    obtain ⟨r, es₃, es₄, rfl, hattempt, hlast⟩ := hafter.of_bind_done
    obtain ⟨hguarded, hlength, hbrought⟩ := path_attempt hattempt
    obtain ⟨rfl, hx⟩ := path_done.1 hlast
    cases hx
    rw [List.append_nil]
    refine ⟨hguarded, hlength, fun sql rows => ?_⟩
    rw [← hbrought]
    cases r <;> simp [Except.mapError]

theorem Tries.once (hguarded : ∀ e ∈ es, Guarded o s c e) (hlength : es.length ≤ 1) :
    Tries o s c prompt es := by
  have honce : es.countP isExecution ≤ 1 := Nat.le_trans List.countP_le_length hlength
  have hnone : es.countP isModel = 0 := countP_isModel_of_guarded hguarded
  refine ⟨fun e he => .inl (hguarded e he), ?_, by omega⟩
  split <;> omega

theorem Tries.twice {first second : List Event} {e : Event} (hrepairs : o.repairs = true)
    (hfirst : ∀ e ∈ first, Guarded o s c e) (hfirstLength : first.length ≤ 1)
    (hrepair : Repair s prompt e) (hsecond : ∀ e ∈ second, Guarded o s c e)
    (hsecondLength : second.length ≤ 1) : Tries o s c prompt (first ++ e :: second) := by
  have honce : first.countP isExecution ≤ 1 := Nat.le_trans List.countP_le_length hfirstLength
  have hagain : second.countP isExecution ≤ 1 := Nat.le_trans List.countP_le_length hsecondLength
  have hnone : first.countP isModel = 0 := countP_isModel_of_guarded hfirst
  have hnone' : second.countP isModel = 0 := countP_isModel_of_guarded hsecond
  constructor
  case calls =>
    intro e' he
    rcases List.mem_append.1 he with he | he
    · exact .inl (hfirst e' he)
    · rcases List.mem_cons.1 he with rfl | he
      · exact .inr hrepair
      · exact .inl (hsecond e' he)
  all_goals
    obtain ⟨_, _, _, rfl⟩ := hrepair
    rw [if_pos hrepairs, List.countP_append]
  case executions =>
    rw [List.countP_cons_of_neg (by simp [isExecution])]
    omega
  case repairs =>
    rw [List.countP_cons_of_pos rfl]
    omega

theorem path_tried {first : String} {x : Except Failure (String × List Record)}
    (h : Path (tried o s c prompt first) es (done x)) :
    Tries o s c prompt es ∧ Brought o c es x := by
  obtain ⟨r, es₁, es₂, rfl, hfirst, hafter⟩ := h.of_bind_done
  obtain ⟨hguarded, hlength, hbrought⟩ := path_attempt hfirst
  cases r with
  | ok ran =>
    obtain ⟨rfl, hx⟩ := path_done.1 hafter
    cases hx
    rw [List.append_nil]
    refine ⟨.once hguarded hlength, fun sql rows => ?_⟩
    rw [← hbrought]
    simp
  | error fault =>
    have hfirst (sql : String) (rows : List Record) :
        ⟨.execute c sql o.queryTimeoutMs, .ok rows⟩ ∉ es₁ := by
      rw [← hbrought]
      simp
    cases hrepairs : o.repairs with
    | false =>
      simp only [hrepairs] at hafter
      obtain ⟨rfl, hx⟩ := path_done.1 hafter
      cases hx
      rw [List.append_nil]
      exact ⟨.once hguarded hlength, fun sql rows => by simp [hfirst]⟩
    | true =>
      simp only [hrepairs] at hafter
      obtain ⟨e, es₃, rfl, hrepair, hguarded₃, hlength₃, hbrought₃⟩ := path_again hafter
      refine ⟨.twice hrepairs hguarded hlength hrepair hguarded₃ hlength₃, fun sql rows => ?_⟩
      obtain ⟨_, _, _, rfl⟩ := hrepair
      rw [hbrought₃, List.mem_append, List.mem_cons]
      simp [hfirst]

/-! ### Stages -/

theorem path_candidate {text : String} (h : Path (candidate s prompt) es (done text)) :
    ∃ answer, es = [⟨.model (Prompt.askStatement prompt s.tables s.foreignKeys), answer⟩] := by
  obtain ⟨answer, es', rfl, hafter⟩ := path_ask_done.1 h
  have hnil : es' = [] := by cases answer <;> exact (path_done.1 hafter).1
  subst hnil
  exact ⟨answer, rfl⟩

theorem path_described {sql : String} {rows : List Record} {out : Outcome}
    (h : Path (described o s sql rows) es (done out)) :
    ∃ summary graph,
      es = [⟨.model (Prompt.askSummary (process o.budget s.uniqueNames rows).rows), summary⟩,
        ⟨.model (Prompt.askGraph (process o.budget s.uniqueNames rows).rows), graph⟩] ∧
      out.text = summaryOf summary ∧ out.graph = graphOf graph := by
  obtain ⟨summary, es₁, rfl, hafter⟩ := path_ask_done.1 h
  obtain ⟨graph, es₂, rfl, hlast⟩ := path_ask_done.1 hafter
  obtain ⟨rfl, hout⟩ := path_done.1 hlast
  cases hout
  exact ⟨summary, graph, rfl, rfl, rfl⟩

theorem Tries.noRows {tries : List Event} {f : Failure} (h : Tries o s c prompt tries)
    (hbrought : Brought o c tries (.error f : Except Failure _)) : NoRows tries := by
  intro c' sql timeoutMs rows hmem
  obtain ⟨_, _, _, -, hevent⟩ | ⟨_, _, _, hevent⟩ := h.calls _ hmem
  · cases hevent
    cases (hbrought sql rows).2 hmem
  · cases hevent

theorem path_stages {x : Except Failure Outcome}
    (h : Path (stages o workspace c prompt) es (done x)) :
    Staged o workspace c prompt es ∧ ∀ f, x = .error f → NoRows es := by
  obtain ⟨r, es', rfl, hafter⟩ := path_ask_done.1 h
  cases r with
  | error e =>
    obtain ⟨rfl, -⟩ := path_done.1 hafter
    exact ⟨.unread e, fun _ _ => by simp [NoRows]⟩
  | ok s =>
    obtain ⟨first, es₁, es₂, rfl, hcandidate, hstages⟩ := hafter.of_bind_done
    obtain ⟨answer, rfl⟩ := path_candidate hcandidate
    obtain ⟨ran, es₃, es₄, rfl, htried, hlast⟩ := hstages.of_bind_done
    obtain ⟨htries, hbrought⟩ := path_tried htried
    cases ran with
    | error f =>
      obtain ⟨rfl, -⟩ := path_done.1 hlast
      have hnone : NoRows es₃ := htries.noRows hbrought
      rw [List.append_nil]
      exact ⟨.failed answer htries hnone, fun _ _ => by simpa [NoRows] using hnone⟩
    | ok ran =>
      obtain ⟨out, es₅, es₆, rfl, hdescribed, hdone⟩ := hlast.of_bind_done
      obtain ⟨summary, graph, rfl, -⟩ := path_described hdescribed
      obtain ⟨rfl, hx⟩ := path_done.1 hdone
      cases hx
      exact ⟨.described answer summary graph htries ((hbrought ran.1 ran.2).1 rfl), by simp⟩

theorem attempt_asks {P : Call → Prop} (hexecute : ∀ sql, P (.execute c sql o.queryTimeoutMs))
    (text : String) : (attempt o s c text).Asks P := by
  unfold attempt
  split
  · trivial
  · refine ⟨hexecute _, fun r => ?_⟩
    cases r <;> trivial

theorem tried_asks {P : Call → Prop} (hexecute : ∀ sql, P (.execute c sql o.queryTimeoutMs))
    (hrepair : ∀ previous feedback,
      P (.model (Prompt.askRepair prompt previous feedback s.tables s.foreignKeys)))
    (first : String) : (tried o s c prompt first).Asks P := by
  refine (attempt_asks hexecute first).bind fun r => ?_
  cases r with
  | ok ran => trivial
  | error fault =>
    dsimp only
    split
    · have hrepaired : (repaired s prompt first fault.feedback).Asks P := by
        refine ⟨hrepair _ _, fun r => ?_⟩
        cases r <;> trivial
      refine hrepaired.bind fun better => ?_
      cases better with
      | none => trivial
      | some better => exact (attempt_asks hexecute better).bind fun _ => trivial
    · trivial

theorem candidate_asks {P : Call → Prop}
    (hstatement : P (.model (Prompt.askStatement prompt s.tables s.foreignKeys))) :
    (candidate s prompt).Asks P := by
  refine ⟨hstatement, fun r => ?_⟩
  cases r <;> trivial

/-- All that the stages may call. -/
theorem stages_asks_of {P : Call → Prop} (hsnapshot : P (.snapshot workspace))
    (hstatement : ∀ tables keys, P (.model (Prompt.askStatement prompt tables keys)))
    (hrepair : ∀ previous feedback tables keys,
      P (.model (Prompt.askRepair prompt previous feedback tables keys)))
    (hexecute : ∀ sql, P (.execute c sql o.queryTimeoutMs))
    (hsummary : ∀ rows, P (.model (Prompt.askSummary rows)))
    (hgraph : ∀ rows, P (.model (Prompt.askGraph rows))) :
    (stages o workspace c prompt).Asks P := by
  refine ⟨hsnapshot, fun r => ?_⟩
  cases r with
  | error e => trivial
  | ok s =>
    refine (candidate_asks (hstatement _ _)).bind fun first =>
      (tried_asks hexecute (fun _ _ => hrepair _ _ _ _) first).bind fun r => ?_
    cases r with
    | error f => trivial
    | ok ran => exact ⟨hsummary _, fun _ => ⟨hgraph _, fun _ => trivial⟩⟩

theorem stages_asks : (stages o workspace c prompt).Asks (·.part = .stage) :=
  stages_asks_of rfl (fun _ _ => rfl) (fun _ _ _ _ => rfl) (fun _ => rfl) (fun _ => rfl) fun _ => rfl

theorem settle_asks (ended : Except Failure Outcome) :
    (settle id ended).Asks (·.part = .ending) := by
  cases ended with
  | error f => exact ⟨rfl, fun _ => trivial⟩
  | ok out =>
    refine ⟨rfl, fun r => ?_⟩
    cases r with
    | error e => exact ⟨rfl, fun _ => trivial⟩
    | ok _ => exact ⟨rfl, fun _ => trivial⟩

/-! ### The whole course -/

/-- Every statement that the stages execute came from the guard. -/
theorem Staged.guarded {called : List Event} {e : Event}
    (h : Staged o workspace c prompt called) (he : e ∈ called) (hexecution : isExecution e = true) :
    ∃ s, ⟨.snapshot workspace, .ok s⟩ ∈ called ∧ Guarded o s c e := by
  have hmodel {ask : Llm.Ask} {r : Except Error String} : e ≠ ⟨.model ask, r⟩ := by
    rintro rfl
    simp [isExecution] at hexecution
  have hsnapshot {r : Except Error Snapshot} : e ≠ ⟨.snapshot workspace, r⟩ := by
    rintro rfl
    simp [isExecution] at hexecution
  have htries {s : Snapshot} {tries : List Event} (tried : Tries o s c prompt tries)
      (hmem : e ∈ tries) : Guarded o s c e := by
    obtain hguarded | ⟨_, _, _, hrepair⟩ := tried.calls e hmem
    · exact hguarded
    · exact absurd hrepair hmodel
  cases h with
  | unread e' =>
    exact absurd (List.mem_singleton.1 he) hsnapshot
  | @failed s tries answer tried _ =>
    refine ⟨s, by simp, htries tried ?_⟩
    simpa [hmodel, hsnapshot] using he
  | @described s tries sql rows answer summary graph tried _ =>
    refine ⟨s, by simp, htries tried ?_⟩
    simpa [hmodel, hsnapshot] using he

theorem Staged.executed {source : DataSource} {r : Request} {called endings : List Event}
    {c' : Connection} {sql : String} {timeoutMs : Nat} {brought : Except ExecutionFault (List Record)}
    (h : Staged o workspace c prompt called) (hendings : ∀ e ∈ endings, e.1.part = .ending)
    (he : ⟨.execute c' sql timeoutMs, brought⟩ ∈
      passed user workspace prompt source r ++ (called ++ endings)) :
    c' = c ∧ timeoutMs = o.queryTimeoutMs ∧ ∃ s candidate, ⟨.snapshot workspace, .ok s⟩ ∈ called ∧
      Guard.validate s.foreignKeys
        { dialect := c.dialect, allowedSchemas := some s.schemas
          forceLimit := o.forceLimit, forbidFreeJoins := o.forbidFreeJoins } candidate = .ok sql := by
  have hcalled : ⟨.execute c' sql timeoutMs, brought⟩ ∈ called := by
    rcases List.mem_append.1 he with he | he
    · simp [passed] at he
    · exact (List.mem_append.1 he).resolve_right fun he => by cases hendings _ he
  obtain ⟨s, hsnapshot, candidate, _, _, hvalid, hevent⟩ := h.guarded hcalled rfl
  cases hevent
  exact ⟨rfl, rfl, s, candidate, hsnapshot, hvalid⟩

end Querent.Pipeline
