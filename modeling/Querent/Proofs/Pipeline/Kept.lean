import Querent.Proofs.Pipeline.Lifecycle
import Querent.Proofs.Prompt.Lead

/-! The statement that is kept of a request that failed. A request has one candidate, or two where the
first is repaired, and its record keeps what the guard made of the last. So a statement that passed is
lost exactly where the guard refuses its repair. -/
namespace Querent.Pipeline

open Dialogue

variable {o : Options} {s : Snapshot} {c : Connection} {user workspace id : Int} {prompt : String}
  {es es₁ es₂ : List Event} {rest : Course (Except Error Answer)}

/-! ### What a log says of the candidates -/

/-- The candidate that a call brings. The fallback stands in for an answer to the question, and
nothing for a repair. -/
def Event.candidate? (s : Snapshot) : Event → Option String
  | ⟨.model a, answer⟩ =>
    let read := (answer : Except Error String).toOption.bind Candidate.ofAnswer
    if Prompt.askedBy Prompt.generate a then some (read.getD (Candidate.fallback s))
    else if Prompt.askedBy Prompt.repair a then read
    else none
  | _ => none

def Event.executed? : Event → Option String
  | ⟨.execute _ sql _, _⟩ => some sql
  | _ => none

def Event.snapshot? : Event → Option Snapshot
  | ⟨.snapshot _, .ok s⟩ => some s
  | _ => none

def Event.connection? : Event → Option Connection
  | ⟨.dataSource _, .ok (some source)⟩ =>
    (Connection.ofJson source.dialect source.config).toOption
  | _ => none

/-- The candidates that some calls brought, in order. -/
def candidates (s : Snapshot) (es : List Event) : List String := es.filterMap (Event.candidate? s)

/-- The statements that some calls executed, in order. -/
def executed (es : List Event) : List String := es.filterMap Event.executed?

/-- What the guard makes of a candidate. -/
def judge (o : Options) (s : Snapshot) (c : Connection) (text : String) : Except Violation String :=
  Guard.validate s.foreignKeys (policy o s c.dialect) text

/-- What the guard makes of the candidates of a request, in order. -/
def verdicts (o : Options) (es : List Event) : List (Except Violation String) :=
  match es.findSome? Event.snapshot?, es.findSome? Event.connection? with
  | some s, some c => (candidates s es).map (judge o s c)
  | _, _ => []

/-- The statements that the guard gave among some verdicts. -/
def passing (vs : List (Except Violation String)) : List String := vs.filterMap Except.toOption

/-- The last statement that the guard gave is kept, and none only where it gave none. -/
def KeepsLast (kept : Option String) (vs : List (Except Violation String)) : Prop :=
  kept = (passing vs).getLast? ∧ (kept = none ↔ ∀ v ∈ vs, v.toOption = none)

theorem passing_nil : passing [] = [] := rfl

theorem passing_cons {v : Except Violation String} {vs : List (Except Violation String)} :
    passing (v :: vs) = v.toOption.toList ++ passing vs := by
  cases v <;> rfl

theorem passing_singleton {v : Except Violation String} : passing [v] = v.toOption.toList := by
  rw [passing_cons, passing_nil, List.append_nil]

theorem candidates_append : candidates s (es₁ ++ es₂) = candidates s es₁ ++ candidates s es₂ :=
  List.filterMap_append

theorem executed_append : executed (es₁ ++ es₂) = executed es₁ ++ executed es₂ :=
  List.filterMap_append

theorem candidate?_of_part {e : Event} (h : e.1.part ≠ .stage) : e.candidate? s = none := by
  obtain ⟨q, r⟩ := e
  cases q <;> first | rfl | exact absurd rfl h

theorem executed?_of_part {e : Event} (h : e.1.part ≠ .stage) : e.executed? = none := by
  obtain ⟨q, r⟩ := e
  cases q <;> first | rfl | exact absurd rfl h

theorem candidates_eq_nil (h : ∀ e ∈ es, e.1.part ≠ .stage) : candidates s es = [] :=
  List.filterMap_eq_nil_iff.2 fun e he => candidate?_of_part (h e he)

theorem executed_eq_nil (h : ∀ e ∈ es, e.1.part ≠ .stage) : executed es = [] :=
  List.filterMap_eq_nil_iff.2 fun e he => executed?_of_part (h e he)

/-! ### The calls of the model -/

theorem candidate?_askStatement {tables : List Table} {keys : List ForeignKey}
    (answer : Except Error String) :
    Event.candidate? s ⟨.model (Prompt.askStatement prompt tables keys), answer⟩ =
      some ((answer.toOption.bind Candidate.ofAnswer).getD (Candidate.fallback s)) := by
  simp only [Event.candidate?, Prompt.askStatement, Prompt.askedBy_ask, if_true]

theorem candidate?_askRepair {previous feedback : String} {tables : List Table}
    {keys : List ForeignKey} (answer : Except Error String) :
    Event.candidate? s ⟨.model (Prompt.askRepair prompt previous feedback tables keys), answer⟩ =
      answer.toOption.bind Candidate.ofAnswer := by
  simp only [Event.candidate?, Prompt.askRepair, Prompt.not_askedBy_generate, Prompt.askedBy_ask,
    if_true, Bool.false_eq_true, if_false]

/-- A description is no candidate. -/
theorem candidate?_of_maxTokens {t : Prompt.Template} {values : List (String × String)}
    (hgenerate : t.maxTokens ≠ Prompt.generate.maxTokens)
    (hrepair : t.maxTokens ≠ Prompt.repair.maxTokens) (answer : Except Error String) :
    Event.candidate? s ⟨.model (Prompt.ask t values), answer⟩ = none := by
  simp only [Event.candidate?, Prompt.not_askedBy_of_maxTokens hgenerate,
    Prompt.not_askedBy_of_maxTokens hrepair, Bool.false_eq_true, if_false]

theorem candidate?_askSummary {rows : List Record} (answer : Except Error String) :
    Event.candidate? s ⟨.model (Prompt.askSummary rows), answer⟩ = none := by
  unfold Prompt.askSummary
  exact candidate?_of_maxTokens (t := Prompt.summary) (by decide) (by decide) answer

theorem candidate?_askGraph {rows : List Record} (answer : Except Error String) :
    Event.candidate? s ⟨.model (Prompt.askGraph rows), answer⟩ = none := by
  unfold Prompt.askGraph
  exact candidate?_of_maxTokens (t := Prompt.graph) (by decide) (by decide) answer

/-! ### The statement that a stage leaves -/

/-- The statement that a stage leaves: the one of its result, or the one of its failure. -/
def left {α : Type} (sql : α → String) : Except Failure α → Option String
  | .ok a => some (sql a)
  | .error f => f.sql

/-- An attempt executes and leaves what the guard gives. -/
theorem path_attempt_left {text : String} {x : Except Fault (String × List Record)}
    (h : Path (attempt o s c text) es (done x)) :
    candidates s es = [] ∧ executed es = (judge o s c text).toOption.toList ∧
      left Prod.fst (x.mapError Fault.failure) = (judge o s c text).toOption := by
  unfold attempt at h
  split at h
  next v hv =>
    obtain ⟨rfl, hx⟩ := path_done.1 h
    cases hx
    rw [judge, hv]
    exact ⟨rfl, rfl, rfl⟩
  next sql hsql =>
    obtain ⟨r, es', rfl, hafter⟩ := path_ask_done.1 h
    rw [judge, hsql]
    cases r with
    | error f | ok rows =>
      obtain ⟨rfl, hx⟩ := path_done.1 hafter
      cases hx
      exact ⟨rfl, rfl, rfl⟩

theorem path_repaired_candidates {previous feedback : String} {x : Option String}
    (h : Path (repaired s prompt previous feedback) es (done x)) :
    candidates s es = x.toList ∧ executed es = [] := by
  obtain ⟨answer, es', rfl, hafter⟩ := path_ask_done.1 h
  have hx : es' = [] ∧ x = answer.toOption.bind Candidate.ofAnswer := by
    cases answer <;> simpa [Except.toOption] using path_done.1 hafter
  obtain ⟨rfl, rfl⟩ := hx
  refine ⟨?_, rfl⟩
  rw [candidates, List.filterMap_cons, candidate?_askRepair, List.filterMap_nil]
  cases answer.toOption.bind Candidate.ofAnswer <;> rfl

/-- A candidate has at most one more behind it, and that only where repairs are made. The guard has
the word on each of them, and what it says of the last is left. -/
theorem path_tried_left {first : String} {x : Except Failure (String × List Record)}
    (h : Path (tried o s c prompt first) es (done x)) :
    ∃ second : Option String, candidates s es = second.toList ∧
      (o.repairs = false → second = none) ∧
      executed es = passing ((first :: second.toList).map (judge o s c)) ∧
      left Prod.fst x = (judge o s c (second.getD first)).toOption := by
  obtain ⟨r, es₁, es₂, rfl, hfirst, hafter⟩ := h.of_bind_done
  obtain ⟨hnone, hexecuted, hleft⟩ := path_attempt_left hfirst
  have honce : executed es₁ ++ [] = passing [judge o s c first] := by
    rw [hexecuted, passing_singleton, List.append_nil]
  rw [candidates_append, hnone, List.nil_append, executed_append]
  cases r with
  | ok ran =>
    obtain ⟨rfl, hx⟩ := path_done.1 hafter
    cases hx
    exact ⟨none, rfl, fun _ => rfl, honce, hleft⟩
  | error fault =>
    cases hrepairs : o.repairs with
    | false =>
      simp only [hrepairs] at hafter
      obtain ⟨rfl, hx⟩ := path_done.1 hafter
      cases hx
      exact ⟨none, rfl, fun _ => rfl, honce, hleft⟩
    | true =>
      simp only [hrepairs] at hafter
      obtain ⟨better, es₃, es₄, rfl, hrepaired, hlast⟩ := Path.of_bind_done hafter
      obtain ⟨hcandidates, hquiet⟩ := path_repaired_candidates hrepaired
      rw [candidates_append, hcandidates, executed_append, hquiet, List.nil_append]
      cases better with
      | none =>
        obtain ⟨rfl, hx⟩ := path_done.1 hlast
        cases hx
        exact ⟨none, rfl, fun _ => rfl, honce, hleft⟩
      | some better =>
        obtain ⟨r, es₅, es₆, rfl, hsecond, hdone⟩ := hlast.of_bind_done
        obtain ⟨hnone', hexecuted', hleft'⟩ := path_attempt_left hsecond
        obtain ⟨rfl, hx⟩ := path_done.1 hdone
        cases hx
        rw [List.append_nil, hnone', hexecuted']
        refine ⟨some better, rfl, nofun, ?_, hleft'⟩
        rw [hexecuted, Option.toList_some, List.map_cons, List.map_singleton, passing_cons,
          passing_singleton]

theorem path_candidate_text {text : String} (h : Path (candidate s prompt) es (done text)) :
    candidates s es = [text] ∧ executed es = [] := by
  obtain ⟨answer, es', rfl, hafter⟩ := path_ask_done.1 h
  have hx : es' = [] ∧
      text = (answer.toOption.bind Candidate.ofAnswer).getD (Candidate.fallback s) := by
    cases answer <;> simpa [Except.toOption] using path_done.1 hafter
  obtain ⟨rfl, rfl⟩ := hx
  refine ⟨?_, rfl⟩
  rw [candidates, List.filterMap_cons, candidate?_askStatement, List.filterMap_nil]

theorem path_described_quiet {sql : String} {rows : List Record} {out : Outcome}
    (h : Path (described o s sql rows) es (done out)) :
    candidates s es = [] ∧ executed es = [] ∧ out.sql = sql := by
  obtain ⟨summary, es₁, rfl, hafter⟩ := path_ask_done.1 h
  obtain ⟨graph, es₂, rfl, hend⟩ := path_ask_done.1 hafter
  obtain ⟨rfl, hout⟩ := path_done.1 hend
  cases hout
  refine ⟨?_, rfl, rfl⟩
  rw [candidates, List.filterMap_cons_none (candidate?_askSummary summary),
    List.filterMap_cons_none (candidate?_askGraph graph), List.filterMap_nil]

/-- What the stages of a request with a catalogue leave is what the guard says of the last candidate. -/
theorem path_stagesOf_left {x : Except Failure Outcome}
    (h : Path (stagesOf o s c prompt) es (done x)) :
    ∃ first, ∃ second : Option String, candidates s es = first :: second.toList ∧
      (o.repairs = false → second = none) ∧
      executed es = passing ((first :: second.toList).map (judge o s c)) ∧
      left Outcome.sql x = (judge o s c (second.getD first)).toOption := by
  obtain ⟨first, es₁, es₂, rfl, hcandidate, hstages⟩ := h.of_bind_done
  obtain ⟨ran, es₃, es₄, rfl, htried, hlast⟩ := hstages.of_bind_done
  obtain ⟨hfirst, hquiet⟩ := path_candidate_text hcandidate
  obtain ⟨second, hsecond, hrepairs, hexecuted, hleft⟩ := path_tried_left htried
  have hdescriptions : candidates s es₄ = [] ∧ executed es₄ = [] ∧
      left Outcome.sql x = left Prod.fst ran := by
    cases ran with
    | error f =>
      obtain ⟨rfl, hx⟩ := path_done.1 hlast
      cases hx
      exact ⟨rfl, rfl, rfl⟩
    | ok ran =>
      obtain ⟨out, es₅, es₆, rfl, hdescribed, hdone⟩ := hlast.of_bind_done
      obtain ⟨rfl, hx⟩ := path_done.1 hdone
      cases hx
      obtain ⟨hnone, hquiet', hsql⟩ := path_described_quiet hdescribed
      rw [List.append_nil]
      exact ⟨hnone, hquiet', congrArg some hsql⟩
  obtain ⟨hnone, hquiet', hsame⟩ := hdescriptions
  refine ⟨first, second, ?_, hrepairs, ?_, hsame.trans hleft⟩
  · rw [candidates_append, candidates_append, hfirst, hsecond, hnone, List.append_nil]
    rfl
  · rw [executed_append, executed_append, hquiet, hquiet', hexecuted, List.nil_append,
      List.append_nil]

/-! ### The record of a request that failed -/

theorem exists_sent_of_row {status : Status} {results : Results}
    (h : row es = some (id, status, results)) (hended : status ≠ .pending) :
    ∃ x, (sent es).find? (·.taken) = some x ∧ x.update.status = status ∧
      x.update.results = results := by
  obtain ⟨id', -, hx⟩ := Option.map_eq_some_iff.1 h
  cases hfind : (sent es).find? (·.taken) with
  | none =>
    rw [hfind] at hx
    cases hx
    exact absurd rfl hended
  | some x =>
    rw [hfind] at hx
    cases hx
    exact ⟨x, rfl, rfl, rfl⟩

theorem Settling.endings {ended : Except Failure Outcome} (h : Settling id ended es rest) :
    ∀ e ∈ es, e.1.part = .ending := by
  cases h <;> simp [Call.part]

/-- The failure that a request has the store take keeps what its stages left. -/
theorem Settling.kept {ended : Except Failure Outcome} {x : Sent} (h : Settling id ended es rest)
    (hx : (sent es).find? (·.taken) = some x) (hfailed : x.update.status = .failed) :
    x.update.results.sql = left Outcome.sql ended := by
  have hmem := List.mem_of_find?_eq_some hx
  cases h with
  | storing | failing => cases hmem
  | stored | answered =>
    obtain rfl : x = _ := List.mem_singleton.1 hmem
    cases hfailed
  | withdrawing =>
    obtain rfl : x = _ := List.mem_singleton.1 hmem
    cases hfailed
  | withdrawn =>
    obtain rfl | hlast := List.mem_cons.1 hmem
    · cases hfailed
    · obtain rfl : x = _ := List.mem_singleton.1 hlast
      rfl
  | failed =>
    obtain rfl : x = _ := List.mem_singleton.1 hmem
    rfl

/-- A request that has had an update taken was created, went through its stages and came to its end. -/
theorem path_create_ended {x : Sent} (h : Path (create o user workspace prompt) es rest)
    (hx : (sent es).find? (·.taken) = some x) :
    ∃ source c r ended called endings,
      Connection.ofJson source.dialect source.config = .ok c ∧
      es = passed user workspace prompt source r ++ (called ++ endings) ∧
      Path (stages o workspace c prompt) called (done ended) ∧ Settling r.id ended endings rest ∧
      sent es = sent endings := by
  have hsome : sent es ≠ [] := by
    intro hnil
    simp [hnil] at hx
  have hunsent {es : List Event} {part : Part} (hes : ∀ e ∈ es, e.1.part = part)
      (hpart : part ≠ .ending) : sent es = [] :=
    sent_eq_nil fun e he => by rwa [hes e he]
  rcases h.of_bind with ⟨q, next, hopened, rfl⟩ | ⟨y, es₁, es₂, rfl, hopened, hafter⟩
  · exact absurd (hunsent (opened_asks.of_path hopened).1 (by decide)) hsome
  have hunsent₁ : sent es₁ = [] := hunsent (opened_asks.of_path hopened).1 (by decide)
  rw [sent_append, hunsent₁, List.nil_append] at hsome ⊢
  obtain ⟨source, c, r, -, hc, rfl, rfl⟩ | ⟨e, rfl, -⟩ := path_opened hopened
  swap
  · obtain ⟨rfl, -⟩ := path_done.1 hafter
    exact absurd rfl hsome
  rcases hafter.of_bind with ⟨q, next, hstages, rfl⟩ | ⟨ended, es₃, es₄, rfl, hstages, hsettle⟩
  · exact absurd (hunsent (stages_asks.of_path hstages).1 (by decide)) hsome
  · have hunsent₃ : sent es₃ = [] := hunsent (stages_asks.of_path hstages).1 (by decide)
    refine ⟨source, c, r, ended, es₃, es₄, hc, rfl, hstages, path_settle hsettle, ?_⟩
    rw [sent_append, hunsent₃, List.nil_append]

theorem findSome?_connection {source : DataSource} {r : Request}
    (hc : Connection.ofJson source.dialect source.config = .ok c) :
    (passed user workspace prompt source r ++ es).findSome? Event.connection? = some c := by
  have hsource : Event.connection? ⟨.dataSource workspace, .ok (some source)⟩ = some c := by
    show (Connection.ofJson source.dialect source.config).toOption = some c
    rw [hc]
    rfl
  rw [List.findSome?_eq_some_iff]
  exact ⟨[⟨.allow workspace, true⟩, ⟨.isOwner user workspace, .ok true⟩], _, _, rfl, hsource,
    by simp [Event.connection?]⟩

theorem snapshot?_of_part {e : Event} (h : e.1.part ≠ .stage) : e.snapshot? = none := by
  obtain ⟨q, r⟩ := e
  cases q <;> first | rfl | exact absurd rfl h

/-- Where the catalogue was not to be had there are no verdicts. -/
theorem verdicts_of_error {source : DataSource} {r : Request} {error : Error}
    (hquiet : ∀ e ∈ es, e.1.part ≠ .stage) :
    verdicts o (passed user workspace prompt source r ++
      (⟨.snapshot workspace, .error error⟩ :: es)) = [] := by
  have hnone : es.findSome? Event.snapshot? = none :=
    List.findSome?_eq_none_iff.2 fun e he => snapshot?_of_part (hquiet e he)
  have hsnapshot : (passed user workspace prompt source r ++
      (⟨.snapshot workspace, .error error⟩ :: es)).findSome? Event.snapshot? = none := hnone
  rw [verdicts, hsnapshot]

/-- Where it was, each candidate has its verdict. -/
theorem verdicts_of_ok {source : DataSource} {r : Request}
    (hc : Connection.ofJson source.dialect source.config = .ok c) :
    verdicts o (passed user workspace prompt source r ++ (⟨.snapshot workspace, .ok s⟩ :: es)) =
      (candidates s es).map (judge o s c) := by
  have hsnapshot : (passed user workspace prompt source r ++
      (⟨.snapshot workspace, .ok s⟩ :: es)).findSome? Event.snapshot? = some s := rfl
  rw [verdicts, hsnapshot, findSome?_connection hc]
  rfl

/-- What the verdicts of a request that is through its stages are, and what these leave. -/
theorem path_stages_left {source : DataSource} {r : Request} {ended : Except Failure Outcome}
    {called endings : List Event}
    (hc : Connection.ofJson source.dialect source.config = .ok c)
    (hstages : Path (stages o workspace c prompt) called (done ended))
    (hendings : ∀ e ∈ endings, e.1.part = .ending)
    (hes : es = passed user workspace prompt source r ++ (called ++ endings)) :
    executed es = passing (verdicts o es) ∧
      (verdicts o es).length ≤ (if o.repairs then 2 else 1) ∧
      left Outcome.sql ended = (verdicts o es).getLast?.bind Except.toOption := by
  have hquiet : ∀ e ∈ endings, e.1.part ≠ .stage := fun e he => by simp [hendings e he]
  obtain ⟨reply, es', rfl, hafter⟩ := path_ask_done.1 hstages
  have hexecuted : executed es = executed es' := by
    have hnone : executed endings = [] := executed_eq_nil hquiet
    rw [hes, executed_append, executed_append, hnone, List.append_nil]
    rfl
  rw [hexecuted, hes]
  cases reply with
  | error e =>
    obtain ⟨rfl, hx⟩ := path_done.1 hafter
    cases hx
    rw [List.cons_append, List.nil_append, verdicts_of_error hquiet]
    exact ⟨rfl, by simp, rfl⟩
  | ok s =>
    have hcandidates : candidates s (es' ++ endings) = candidates s es' := by
      rw [candidates_append, candidates_eq_nil hquiet, List.append_nil]
    obtain ⟨first, second, htwo, hrepairs, hexecuted', hleft⟩ := path_stagesOf_left hafter
    rw [List.cons_append, verdicts_of_ok hc, hcandidates, htwo, hleft]
    refine ⟨hexecuted', ?_, ?_⟩
    · cases hr : o.repairs with
      | false => simp [hrepairs hr]
      | true => cases second <;> simp
    · cases second <;> rfl

/-- Of two verdicts at most, the last word keeps the last statement that passed unless it is a
refusal that follows one. -/
theorem keepsLast_getLast? {vs : List (Except Violation String)} (h : vs.length ≤ 2) :
    KeepsLast (vs.getLast?.bind Except.toOption) vs ↔ ∀ sql v, vs ≠ [.ok sql, .error v] := by
  match vs, h with
  | [], _ => simp [KeepsLast, passing_nil]
  | [v], _ => cases v <;> simp [KeepsLast, passing_cons, passing_nil, Except.toOption]
  | [v, w], _ =>
    cases v <;> cases w <;> simp [KeepsLast, passing_cons, passing_nil, Except.toOption]

/-- The record of a request that failed keeps the guard's last word on its candidates. -/
theorem Consistent.failed_left {rejects : Update → Prop} {s : Shared} {c : Caller} {r : Request}
    (h : Consistent rejects s) (hc : c ∈ s.callers) (hr : r ∈ s.store.requests)
    (owned : created c.log = some r.id) (hfailed : r.status = .failed) :
    executed c.log = passing (verdicts c.options c.log) ∧
      (verdicts c.options c.log).length ≤ (if c.options.repairs then 2 else 1) ∧
      r.results.sql = (verdicts c.options c.log).getLast?.bind Except.toOption := by
  obtain ⟨⟨id, status, results⟩, hrow⟩ : ∃ x, row c.log = some x := by simp [row, owned]
  have hsame := h.record_eq hc hrow hr owned
  obtain ⟨rfl, rfl, rfl⟩ : r.id = id ∧ r.status = status ∧ r.results = results := by
    simpa [recordRow] using hsame
  obtain ⟨x, hx, hstatus, hresults⟩ := exists_sent_of_row hrow (by simp [hfailed])
  obtain ⟨source, connection, r', ended, called, endings, hconnection, hes, hstages, hsettling,
    hsent⟩ := path_create_ended (h.path c hc) hx
  obtain ⟨hexecuted, hlength, hleft⟩ :=
    path_stages_left hconnection hstages hsettling.endings hes
  rw [hsent] at hx
  have hkept := hsettling.kept hx (by rw [hstatus, hfailed])
  rw [← hresults, hkept, hleft]
  exact ⟨hexecuted, hlength, rfl⟩

/-! ### The main result -/

/-- A record that says a request failed has its caller. It keeps the guard's last word, and with it
the last statement that passed, unless that failed in the engine and the guard refused its repair. -/
theorem failed_keeps {rejects : Update → Prop} {s : Shared} (h : Reachable rejects s) :
    ∀ r ∈ s.store.requests, r.status = .failed →
      (∃ c ∈ s.callers, created c.log = some r.id) ∧
      ∀ c ∈ s.callers, created c.log = some r.id →
        executed c.log = passing (verdicts c.options c.log) ∧
        (verdicts c.options c.log).length ≤ (if c.options.repairs then 2 else 1) ∧
        r.results.sql = (verdicts c.options c.log).getLast?.bind Except.toOption ∧
        (KeepsLast r.results.sql (verdicts c.options c.log) ↔
          ∀ sql v, verdicts c.options c.log ≠ [.ok sql, .error v]) := by
  have hconsistent := h.consistent
  intro r hr hfailed
  constructor
  · obtain ⟨c, hc, hrow⟩ := hconsistent.exists_caller hr
    exact ⟨c, hc, created_of_row hrow⟩
  intro c hc owned
  obtain ⟨hexecuted, hlength, hsql⟩ := hconsistent.failed_left hc hr owned hfailed
  have htwo : (verdicts c.options c.log).length ≤ 2 := by
    refine hlength.trans ?_
    split <;> simp
  refine ⟨hexecuted, hlength, hsql, ?_⟩
  rw [hsql]
  exact keepsLast_getLast? htwo

/-- A model with answers at hand, given one after the other, and those who answer all else. -/
def scripted (w : Collaborators) (q : Call) (s : Memory × List (Except Error String)) :
    q.Reply × (Memory × List (Except Error String)) :=
  match q, s with
  | .model _, (m, answer :: rest) => (answer, (m, rest))
  | q, (m, rest) =>
    let (r, m) := w.answer firstMoment "r-1" q m
    (r, (m, rest))

theorem answers_scripted (w : Collaborators) (q : Call) {s : Memory × List (Except Error String)}
    (h : s.1.store.Numbered) :
    Answers (fun _ => False) s.1.store q (scripted w q s).1 (scripted w q s).2.1.store ∧
      (scripted w q s).2.1.store.Numbered := by
  obtain ⟨m, rest⟩ := s
  cases q with
  | model a =>
    cases rest with
    | nil => exact answers_memory w firstMoment "r-1" (.model a) h
    | cons answer rest => exact ⟨.other _ rfl, h⟩
  | _ => exact answers_memory w firstMoment "r-1" _ h

/-- A workspace whose engine fails on whatever it is given. -/
def stalled : Collaborators :=
  { bare with execute _ _ _ := .error { dialect := .postgres, engineMessage := "no such column" } }

/-- The options under which a statement is repaired. -/
def repairing : Options := { Options.standard with repairs := true }

/-- One caller in a stalled workspace, with a model that gives some answers. -/
def stalledWith (answers : List (Except Error String)) : Shared :=
  let memory : Memory := { limiter := .standard, store := .empty }
  let c := Caller.start repairing 1 1 "how much"
  { store := (c.rest.run (scripted stalled) (memory, answers)).2.1.store
    callers := [c.finished (c.rest.history (scripted stalled) (memory, answers))
      (c.rest.run (scripted stalled) (memory, answers)).1] }

theorem reachable_stalledWith (answers : List (Except Error String)) :
    Reachable (fun _ => False) (stalledWith answers) := by
  have hcalled : Reachable (fun _ => False)
      { store := .empty, callers := [] ++ .start repairing 1 1 "how much" :: [] } :=
    Relation.ReflTransGen.single (.call repairing 1 1 "how much")
  have hthrough := through_history (fun s : Memory × List (Except Error String) => s.1.store)
    (I := fun s => s.1.store.Numbered) (fun q _ hs => answers_scripted stalled q hs)
    (create repairing 1 1 "how much") (s := ({ limiter := .standard, store := .empty }, answers))
    Store.numbered_empty
  exact hcalled.path (path_history _ _ _) hthrough

/-- The model has no repair, and the statement that failed in the engine is kept. -/
theorem failed_keeps_unrepaired :
    Reachable (fun _ => False) (stalledWith [.ok "SELECT total"]) ∧
      (stalledWith [.ok "SELECT total"]).store.requests.map
        (fun r => (r.id, r.status, r.results.sql)) =
          [(1, .failed, some "SELECT total LIMIT 101")] ∧
      ∀ r ∈ (stalledWith [.ok "SELECT total"]).store.requests,
        ∀ c ∈ (stalledWith [.ok "SELECT total"]).callers,
          KeepsLast r.results.sql (verdicts c.options c.log) := by
  have hreachable := reachable_stalledWith [.ok "SELECT total"]
  have hrecords : (stalledWith [.ok "SELECT total"]).store.requests.map
      (fun r => (r.id, r.status, r.results.sql)) =
        [(1, .failed, some "SELECT total LIMIT 101")] := by decide +kernel
  have howned : ∀ c ∈ (stalledWith [.ok "SELECT total"]).callers, created c.log = some 1 := by
    decide +kernel
  refine ⟨hreachable, hrecords, fun r hr c hc => ?_⟩
  have hr' := List.mem_map_of_mem (f := fun r => (r.id, r.status, r.results.sql)) hr
  rw [hrecords, List.mem_singleton, Prod.mk.injEq, Prod.mk.injEq] at hr'
  obtain ⟨hid, hstatus, hsql⟩ := hr'
  obtain ⟨-, hcallers⟩ := failed_keeps hreachable r hr hstatus
  obtain ⟨-, -, hlast, hkeeps⟩ := hcallers c hc (by rw [howned c hc, hid])
  refine hkeeps.2 fun sql v hlost => ?_
  rw [hlost, hsql] at hlast
  cases hlast

/-- The guard refuses the repair of a statement that it has let through, and the record of the
request keeps neither. -/
theorem passed_statement_lost :
    ∃ s, Reachable (fun _ => False) s ∧ ∃ r ∈ s.store.requests, r.status = .failed ∧
      r.results.sql = none ∧ ∃ c ∈ s.callers, created c.log = some r.id ∧
        passing (verdicts c.options c.log) = ["SELECT total LIMIT 101"] ∧
        ¬ KeepsLast r.results.sql (verdicts c.options c.log) := by
  have hreachable := reachable_stalledWith [.ok "SELECT total", .ok "DELETE FROM orders"]
  generalize hs : stalledWith [.ok "SELECT total", .ok "DELETE FROM orders"] = s at hreachable
  have hrecords : s.store.requests.map (fun r => (r.id, r.status, r.results.sql)) =
      [(1, .failed, none)] := by
    rw [← hs]
    decide +kernel
  have hcallers : s.callers.map (fun c => (created c.log, executed c.log)) =
      [(some 1, ["SELECT total LIMIT 101"])] := by
    rw [← hs]
    decide +kernel
  obtain ⟨r, hrequests, hr⟩ := List.map_eq_singleton_iff.1 hrecords
  obtain ⟨c, hall, hc⟩ := List.map_eq_singleton_iff.1 hcallers
  simp only [Prod.mk.injEq] at hr hc
  obtain ⟨hid, hstatus, hsql⟩ := hr
  obtain ⟨howned, hexecuted⟩ := hc
  have hr : r ∈ s.store.requests := by simp [hrequests]
  have hc : c ∈ s.callers := by simp [hall]
  have howned : created c.log = some r.id := by rw [howned, hid]
  have hpassing : passing (verdicts c.options c.log) = ["SELECT total LIMIT 101"] := by
    rw [← hexecuted, (hreachable.consistent.failed_left hc hr howned hstatus).1]
  refine ⟨s, hreachable, r, hr, hstatus, hsql, c, hc, howned, hpassing, fun hkeeps => ?_⟩
  have hlast := hkeeps.1
  rw [hsql, hpassing] at hlast
  cases hlast

end Querent.Pipeline
