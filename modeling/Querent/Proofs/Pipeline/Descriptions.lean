import Querent.Proofs.Pipeline.Lifecycle
import Querent.Proofs.Pipeline.Renumbered

/-! Descriptions of results. The model describes rows that are there already: whatever it says of
them, or if it says nothing, a request comes to the same end, and nothing but the descriptions
differs. -/
namespace Querent.Pipeline

open Dialogue

/-! ### The same but for descriptions -/

/-- The same update with other descriptions. -/
def Redescribed (u u' : Update) : Prop :=
  ∃ text graph, u' = { u with results := { u.results with text, graph } }

/-- The same record with other descriptions. -/
def RecordRedescribed (r r' : Request) : Prop :=
  ∃ text graph, r' = { r with results := { r.results with text, graph } }

inductive SameOutcome : Except Failure Outcome → Except Failure Outcome → Prop
  | error (f : Failure) : SameOutcome (.error f) (.error f)
  | ok (out : Outcome) (text : Option String) (graph : Option Json) :
      SameOutcome (.ok out) (.ok { out with text, graph })

/-- The same error, or the same answer with other descriptions. -/
inductive SameEnd : Except Error Answer → Except Error Answer → Prop
  | error (e : Error) : SameEnd (.error e) (.error e)
  | ok (a : Answer) (text : Option String) (graph : Option Json) :
      SameEnd (.ok a) (.ok { a with text, graph })

/-- The model is asked to describe rows. -/
def Call.Describes (q : Call) : Prop :=
  ∃ rows, q = .model (Prompt.askSummary rows) ∨ q = .model (Prompt.askGraph rows)

/-- The same call, but for the descriptions in an update. -/
inductive SameCall : Call → Call → Prop
  | same (q : Call) : SameCall q q
  | complete (id : Int) {u u' : Update} (redescribed : Redescribed u u') :
      SameCall (.complete id u) (.complete id u')

/-- The same call with the same answer, but for descriptions and for what the model answers when it
is asked for some. -/
inductive Alike : Event → Event → Prop
  | same (e : Event) : Alike e e
  | described {q : Call} (describes : q.Describes) (r r' : q.Reply) : Alike ⟨q, r⟩ ⟨q, r'⟩
  | complete (id : Int) {u u' : Update} (redescribed : Redescribed u u') (r : Except Error Unit) :
      Alike ⟨.complete id u, r⟩ ⟨.complete id u', r⟩

variable {o : Options} {s : Snapshot} {c : Connection} {user workspace id : Int} {prompt : String}
  {es es' : List Event} {x x' : Except Error Answer} {q : Call}

/-! ### Two requests side by side -/

theorem reply_eq_of_alike (hq : ¬ q.Describes) {r r' : q.Reply} (h : Alike ⟨q, r⟩ ⟨q, r'⟩) :
    r = r' := by
  cases h with
  | same => rfl
  | described describes => exact absurd describes hq
  | complete => rfl

theorem reply_eq_of_complete {u u' : Update} {r r' : Except Error Unit}
    (h : Alike ⟨.complete id u, r⟩ ⟨.complete id u', r'⟩) : r = r' := by
  cases h with
  | same | complete => rfl
  | described describes => obtain ⟨_, h | h⟩ := describes <;> cases h

theorem not_describes_of_part (h : q.part ≠ .stage) : ¬ q.Describes := by
  rintro ⟨rows, rfl | rfl⟩ <;> exact h rfl

/-- A description is asked for in fewer tokens than a statement. -/
theorem not_describes_of_maxTokens {ask : Llm.Ask} (h : ask.maxTokens = 1024) :
    ¬ (Call.model ask).Describes := by
  rintro ⟨rows, h' | h'⟩
  all_goals
    obtain rfl := Call.model.inj h'
    cases h

theorem candidate_describes_not : (candidate s prompt).Asks (¬ ·.Describes) :=
  candidate_asks (not_describes_of_maxTokens rfl)

theorem tried_describes_not (first : String) : (tried o s c prompt first).Asks (¬ ·.Describes) := by
  refine tried_asks ?_ (fun _ _ => not_describes_of_maxTokens rfl) first
  rintro sql ⟨rows, h | h⟩ <;> cases h

theorem twins_same {α : Type} {d : Course α} (h : d.Asks (¬ ·.Describes)) :
    Twins SameCall Alike Eq d d := Twins.refl h .same fun _ hq _ _ => reply_eq_of_alike hq

theorem twins_stages : Twins SameCall Alike SameOutcome (stages o workspace c prompt)
    (stages o workspace c prompt) := by
  refine .asks (.same _) fun r r' halike => ?_
  obtain rfl : r = r' := reply_eq_of_alike (by rintro ⟨rows, h | h⟩ <;> cases h) halike
  cases r with
  | error e => exact .ends (.error _)
  | ok s =>
    refine (twins_same candidate_describes_not).bind ?_
    rintro first _ rfl
    refine (twins_same (tried_describes_not first)).bind ?_
    rintro ran _ rfl
    cases ran with
    | error f => exact .ends (.error f)
    | ok ran => exact .asks (.same _) fun _ _ _ => .asks (.same _) fun _ _ _ => .ends (.ok _ _ _)

/-- A failure is stored and told in one way. -/
theorem twins_failWith (f : Failure) :
    Twins SameCall Alike SameEnd (failWith id f) (failWith id f) :=
  .asks (.same _) fun _ _ _ => .ends (.error f.error)

theorem twins_settle {ended ended' : Except Failure Outcome} (h : SameOutcome ended ended') :
    Twins SameCall Alike SameEnd (settle id ended) (settle id ended') := by
  cases h with
  | error f => exact twins_failWith f
  | ok out text graph =>
    refine .asks (.complete id ⟨text, graph, rfl⟩) fun r r' halike => ?_
    obtain rfl : r = r' := reply_eq_of_complete halike
    cases r with
    | error e => exact twins_failWith _
    | ok _ =>
      refine .asks (.same _) fun response response' halike => ?_
      obtain rfl := reply_eq_of_alike (not_describes_of_part (by simp [Call.part])) halike
      exact .ends (.ok _ text graph)

/-- Two requests for the same go side by side. -/
theorem twins_create : Twins SameCall Alike SameEnd (create o user workspace prompt)
    (create o user workspace prompt) := by
  have hopened : (opened user workspace prompt).run.Asks (¬ ·.Describes) :=
    Asks.mono opened_asks fun q hq => not_describes_of_part (by simp [hq])
  refine (twins_same hopened).bind ?_
  rintro entry _ rfl
  cases entry with
  | error e => exact .ends (.error e)
  | ok entry => exact twins_stages.bind fun _ _ hsame => twins_settle hsame

/-! ### What the calls say of the record -/

theorem created?_of_alike {e e' : Event} (h : Alike e e') : e'.created? = e.created? := by
  cases h with
  | same => rfl
  | described describes => obtain ⟨rows, rfl | rfl⟩ := describes <;> rfl
  | complete => rfl

/-- The same offer of an update with other descriptions. -/
def SentRedescribed (x x' : Sent) : Prop :=
  x'.id = x.id ∧ Redescribed x.update x'.update ∧ x'.taken = x.taken

theorem redescribed_refl (u : Update) : Redescribed u u := ⟨u.results.text, u.results.graph, rfl⟩

theorem sent?_of_alike {e e' : Event} (h : Alike e e') :
    Option.Rel SentRedescribed e.sent? e'.sent? := by
  cases h with
  | same =>
    cases e.sent? with
    | none => exact .none
    | some x => exact .some ⟨rfl, redescribed_refl _, rfl⟩
  | described describes => obtain ⟨rows, rfl | rfl⟩ := describes <;> exact .none
  | complete id redescribed r => exact .some ⟨rfl, redescribed, rfl⟩

theorem created_of_alike (h : List.Forall₂ Alike es es') : created es' = created es := by
  induction h with
  | nil => rfl
  | cons hfirst _ ih =>
    unfold created at ih ⊢
    rw [List.findSome?_cons, List.findSome?_cons, created?_of_alike hfirst, ih]

theorem sent_of_alike (h : List.Forall₂ Alike es es') :
    List.Forall₂ SentRedescribed (sent es) (sent es') := by
  have hlift : Relator.LiftFun Alike (Option.Rel SentRedescribed) Event.sent? Event.sent? :=
    fun _ _ => sent?_of_alike
  exact List.rel_filterMap hlift h

/-- A record without its descriptions. -/
def outline (x : Int × Status × Results) : Int × Status × Option String × Option Json :=
  (x.1, x.2.1, x.2.2.sql, x.2.2.table)

theorem outline_row_of_alike (h : List.Forall₂ Alike es es') :
    (row es').map outline = (row es).map outline := by
  have htaken :
      Option.Rel SentRedescribed ((sent es).find? (·.taken)) ((sent es').find? (·.taken)) :=
    forall₂_find? (sent_of_alike h) fun _ _ _ hsame => hsame.2.2.symm
  unfold row
  rw [created_of_alike h]
  generalize (sent es).find? (·.taken) = x, (sent es').find? (·.taken) = x' at htaken
  cases htaken with
  | none => rfl
  | some hsame =>
    obtain ⟨-, ⟨text, graph, hupdate⟩, -⟩ := hsame
    rw [Option.map_map, Option.map_map]
    refine congrArg (Option.map · _) (funext fun id => ?_)
    simp [outline, hupdate]

/-! ### What the descriptions are made of -/

theorem not_describes_of_mem {α : Type} {d rest : Course α} (h : Path d es rest)
    (hd : d.Asks (¬ ·.Describes)) : ∀ e ∈ es, ¬ e.1.Describes := (hd.of_path h).1

/-- The model is asked for a summary and a graph of some rows, and for no other descriptions. The
summary is what it answers to the first, and the graph what it answers to the second, if that is an
object. -/
def DescribedBy (es : List Event) (text : Option String) (graph : Option Json) : Prop :=
  ∃ before rows summary drawn after,
    es = before ++ [⟨.model (Prompt.askSummary rows), summary⟩,
      ⟨.model (Prompt.askGraph rows), drawn⟩] ++ after ∧
    (∀ e ∈ before ++ after, ¬ e.1.Describes) ∧
    text = summaryOf summary ∧ graph = graphOf drawn ∧
    (graph.isSome ↔ ∃ answer members, drawn = .ok answer ∧
      Json.parse (Llm.stripFence answer) = some (.object members))

theorem DescribedBy.within {text : Option String} {graph : Option Json} {first last : List Event}
    (h : DescribedBy es text graph) (hfirst : ∀ e ∈ first, ¬ e.1.Describes)
    (hlast : ∀ e ∈ last, ¬ e.1.Describes) : DescribedBy (first ++ (es ++ last)) text graph := by
  obtain ⟨before, rows, summary, drawn, after, rfl, hothers, hmade⟩ := h
  refine ⟨first ++ before, rows, summary, drawn, after ++ last, by simp, fun e he => ?_, hmade⟩
  simp only [List.mem_append] at he hothers
  rcases he with (he | he) | he | he
  · exact hfirst e he
  · exact hothers e (.inl he)
  · exact hothers e (.inr he)
  · exact hlast e he

theorem isSome_graphOf {drawn : Except Error String} :
    (graphOf drawn).isSome ↔ ∃ answer members, drawn = .ok answer ∧
      Json.parse (Llm.stripFence answer) = some (.object members) := by
  cases drawn with
  | error e => simp [graphOf, Except.toOption]
  | ok answer =>
    cases hparsed : Json.parse (Llm.stripFence answer) with
    | none => simp [graphOf, Except.toOption, hparsed]
    | some v => cases v <;> simp [graphOf, Except.toOption, hparsed]

theorem path_stages_ok {out : Outcome}
    (h : Path (stages o workspace c prompt) es (done (.ok out))) :
    DescribedBy es out.text out.graph := by
  obtain ⟨x, es', rfl, hafter⟩ := path_ask_done.1 h
  cases x with
  | error e => cases (path_done.1 hafter).2
  | ok s =>
    obtain ⟨first, es₁, es₂, rfl, hcandidate, hstages⟩ := hafter.of_bind_done
    obtain ⟨ran, es₃, es₄, rfl, htried, hlast⟩ := hstages.of_bind_done
    cases ran with
    | error f => cases (path_done.1 hlast).2
    | ok ran =>
      obtain ⟨out', es₅, es₆, rfl, hdescribed, hdone⟩ := hlast.of_bind_done
      obtain ⟨summary, drawn, rfl, htext, hgraph⟩ := path_described hdescribed
      obtain ⟨rfl, hout⟩ := path_done.1 hdone
      cases hout
      refine ⟨⟨.snapshot workspace, .ok s⟩ :: (es₁ ++ es₃),
        (process o.budget s.uniqueNames ran.2).rows, summary, drawn, [], by simp, ?_, htext, hgraph,
        hgraph ▸ isSome_graphOf⟩
      rw [List.append_nil]
      rw [List.forall_mem_cons, List.forall_mem_append]
      refine ⟨?_, ?_, ?_⟩
      · rintro ⟨rows, h | h⟩ <;> cases h
      · exact not_describes_of_mem hcandidate candidate_describes_not
      · exact not_describes_of_mem htried (tried_describes_not first)

/-- A success has its descriptions from the model, and its record says what its caller is told. -/
def WellDescribed (es : List Event) (x : Except Error Answer) : Prop :=
  ∀ a, x = .ok a → DescribedBy es a.text a.graph ∧
    row es = some (a.request, .succeeded, ⟨a.sql, a.text, a.table.map Columnar.toValue, a.graph⟩)

theorem wellDescribed (h : Path (create o user workspace prompt) es (done x)) :
    WellDescribed es x := by
  rintro a rfl
  constructor
  · obtain ⟨source, c, r, called, out, response, rfl, hstages, rfl⟩ := path_create_ok h
    refine (path_stages_ok hstages).within (fun e he => not_describes_of_part ?_)
      (fun e he => not_describes_of_part ?_)
    · have hpassed : ∀ e ∈ passed user workspace prompt source r, e.1.part ≠ .stage := by
        simp [passed, Call.part]
      exact hpassed e he
    · have hending : ∀ e ∈ [⟨.complete r.id out.update, .ok ()⟩,
          (⟨.freshResponse, response⟩ : Event)], e.1.part ≠ .stage := by simp [Call.part]
      exact hending e he
  · obtain ⟨-, e, hx⟩ | ⟨id, out, response, hx, hrow⟩ | ⟨id, e, sql, taken, hx, -⟩ :=
      (path_standing h).of_done
    all_goals cases hx
    exact hrow

/-! ### In memory -/

/-- The collaborators are the same, the model as far as it is asked for statements. -/
structure SameSave (w w' : Collaborators) : Prop where
  isOwner : w'.isOwner = w.isOwner
  dataSource : w'.dataSource = w.dataSource
  snapshot : w'.snapshot = w.snapshot
  execute : w'.execute = w.execute
  statement : ∀ prompt tables keys, w'.model (Prompt.askStatement prompt tables keys) =
    w.model (Prompt.askStatement prompt tables keys)
  repair : ∀ prompt previous feedback tables keys,
    w'.model (Prompt.askRepair prompt previous feedback tables keys) =
      w.model (Prompt.askRepair prompt previous feedback tables keys)

/-- A call that a new request may make. -/
inductive Requested : Call → Prop
  | check {q : Call} (part : q.part = .check) : Requested q
  | snapshot (workspace : Int) : Requested (.snapshot workspace)
  | statement (prompt : String) (tables : List Table) (keys : List ForeignKey) :
      Requested (.model (Prompt.askStatement prompt tables keys))
  | repair (prompt previous feedback : String) (tables : List Table) (keys : List ForeignKey) :
      Requested (.model (Prompt.askRepair prompt previous feedback tables keys))
  | execute (c : Connection) (sql : String) (timeoutMs : Nat) : Requested (.execute c sql timeoutMs)
  | describes {q : Call} (describes : q.Describes) : Requested q
  | ending {q : Call} (part : q.part = .ending) : Requested q

theorem create_requested : (create o user workspace prompt).Asks Requested := by
  refine (Asks.mono opened_asks fun _ => .check).bind fun entry => ?_
  cases entry with
  | error e => trivial
  | ok entry =>
    refine Asks.bind ?_ fun ended => (settle_asks ended).mono fun _ => .ending
    exact stages_asks_of (.snapshot _) (.statement _) (.repair _) (fun _ => .execute _ _ _)
      (fun rows => .describes ⟨rows, .inl rfl⟩) fun rows => .describes ⟨rows, .inr rfl⟩

structure SameMemory (m m' : Memory) : Prop where
  limiter : m'.limiter = m.limiter
  requests : List.Forall₂ RecordRedescribed m.store.requests m'.store.requests

theorem completeIn_redescribed {rs rs' : List Request} {u u' : Update} (id : Int) (now : Moment)
    (h : List.Forall₂ RecordRedescribed rs rs') (hu : Redescribed u u') :
    (∃ e, Store.completeIn id u now rs = .error e ∧ Store.completeIn id u' now rs' = .error e) ∨
      ∃ done done', Store.completeIn id u now rs = .ok done ∧
        Store.completeIn id u' now rs' = .ok done' ∧ List.Forall₂ RecordRedescribed done done' := by
  induction h with
  | nil => exact .inl ⟨_, rfl, rfl⟩
  | @cons r r' rs rs' hfirst hrest ih =>
    obtain ⟨text, graph, rfl⟩ := hfirst
    unfold Store.completeIn
    dsimp only
    split
    · split
      · obtain ⟨text', graph', rfl⟩ := hu
        exact .inr ⟨_, _, rfl, rfl, .cons ⟨text', graph', rfl⟩ hrest⟩
      · exact .inl ⟨_, rfl, rfl⟩
    · obtain ⟨e, he, he'⟩ | ⟨done, done', hdone, hdone', hall⟩ := ih
      · exact .inl ⟨e, by rw [he]; rfl, by rw [he']; rfl⟩
      · exact .inr ⟨r :: done, _, by rw [hdone]; rfl, by rw [hdone']; rfl,
          .cons ⟨text, graph, rfl⟩ hall⟩

theorem recordRedescribed_refl (r : Request) : RecordRedescribed r r :=
  ⟨r.results.text, r.results.graph, rfl⟩

/-- Records that differ in their descriptions take an update alike. -/
theorem completed_redescribed {w w' : Collaborators} {now : Now} {response : String} {m m' : Memory}
    (id : Int) {u u' : Update} (hu : Redescribed u u') (hm : SameMemory m m') :
    Alike ⟨.complete id u, (w.answer now response (.complete id u) m).1⟩
        ⟨.complete id u', (w'.answer now response (.complete id u') m').1⟩ ∧
      SameMemory (w.answer now response (.complete id u) m).2
        (w'.answer now response (.complete id u') m').2 := by
  simp only [Collaborators.answer, Store.complete]
  obtain ⟨e, he, he'⟩ | ⟨done, done', hdone, hdone', hall⟩ :=
    completeIn_redescribed id now.moment hm.requests hu
  · rw [he, he']
    exact ⟨.complete id hu _, hm⟩
  · rw [hdone, hdone']
    exact ⟨.complete id hu _, hm.limiter, hall⟩

/-- Memories that differ in descriptions answer the calls of a new request alike. -/
theorem answer_redescribed {w w' : Collaborators} (hw : SameSave w w') (now : Now)
    (response : String) {q q' : Call} {m m' : Memory} (hq : Requested q)
    (hsame : SameCall q q') (hm : SameMemory m m') :
    Alike ⟨q, (w.answer now response q m).1⟩ ⟨q', (w'.answer now response q' m').1⟩ ∧
      SameMemory (w.answer now response q m).2 (w'.answer now response q' m').2 := by
  cases hsame with
  | complete id hu => exact completed_redescribed id hu hm
  | same =>
    cases hq with
    | snapshot workspace =>
      simp only [Collaborators.answer, hw.snapshot]
      exact ⟨.same _, hm⟩
    | statement prompt tables keys =>
      simp only [Collaborators.answer, hw.statement]
      exact ⟨.same _, hm⟩
    | repair prompt previous feedback tables keys =>
      simp only [Collaborators.answer, hw.repair]
      exact ⟨.same _, hm⟩
    | execute c sql timeoutMs =>
      simp only [Collaborators.answer, hw.execute]
      exact ⟨.same _, hm⟩
    | describes hdescribes =>
      refine ⟨.described hdescribes _ _, ?_⟩
      obtain ⟨rows, rfl | rfl⟩ := hdescribes
      all_goals exact hm
    | ending hpart =>
      cases q with
      | complete id u => exact completed_redescribed id (redescribed_refl u) hm
      | freshResponse => exact ⟨.same _, hm⟩
      | _ => cases hpart
    | check hpart =>
      cases q with
      | allow workspace =>
        simp only [Collaborators.answer, hm.limiter]
        exact ⟨.same _, rfl, hm.requests⟩
      | isOwner user workspace =>
        simp only [Collaborators.answer, hw.isOwner]
        exact ⟨.same _, hm⟩
      | dataSource workspace =>
        simp only [Collaborators.answer, hw.dataSource]
        exact ⟨.same _, hm⟩
      | create user workspace prompt =>
        simp only [Collaborators.answer, Store.create, hm.requests.length_eq]
        exact ⟨.same _, hm.limiter,
          List.rel_append hm.requests (.cons (recordRedescribed_refl _) .nil)⟩
      | _ => cases hpart

/-- Requests out of one memory. -/
theorem run_redescribed {w w' : Collaborators} (hw : SameSave w w') {clock : Call → Now}
    (hclock : ∀ q q', SameCall q q' → clock q' = clock q) (response : String) (m : Memory) :
    let answer (w : Collaborators) (q : Call) := w.answer (clock q) response q
    List.Forall₂ Alike ((create o user workspace prompt).history (answer w) m)
      ((create o user workspace prompt).history (answer w') m) ∧
    SameEnd ((create o user workspace prompt).run (answer w) m).1
      ((create o user workspace prompt).run (answer w') m).1 ∧
    SameMemory ((create o user workspace prompt).run (answer w) m).2
      ((create o user workspace prompt).run (answer w') m).2 := by
  intro answer
  refine twins_create.run create_requested (fun q q' s s' hq hsame hm => ?_)
    ⟨rfl, List.forall₂_same.2 fun r _ => recordRedescribed_refl r⟩
  have hnow := hclock q q' hsame
  simp only [answer, hnow]
  exact answer_redescribed hw (clock q) response hq hsame hm

/-! ### The main result -/

/-- Two requests for the same, to whom all is answered alike but for what the model says of the
rows, come to the same end and leave the same record, the descriptions aside. Each description is
made of the model's answer to its own question. -/
theorem descriptions_isolated (h : Path (create o user workspace prompt) es (done x))
    (h' : Path (create o user workspace prompt) es' (done x'))
    (hsame : ∀ p ∈ es.zip es', SameCall p.1.1 p.2.1 → Alike p.1 p.2) :
    List.Forall₂ Alike es es' ∧ SameEnd x x' ∧
    (row es').map outline = (row es).map outline ∧ WellDescribed es x ∧ WellDescribed es' x' ∧
    ∀ (w w' : Collaborators) (clock : Call → Now) (response : String) (m : Memory),
      SameSave w w' → (∀ q q', SameCall q q' → clock q' = clock q) →
      let run (w : Collaborators) := (create o user workspace prompt).run
        (fun q => w.answer (clock q) response q) m
      SameEnd (run w).1 (run w').1 ∧ SameMemory (run w).2 (run w').2 := by
  obtain ⟨halike, hend⟩ := twins_create.path h h' hsame
  refine ⟨halike, hend, outline_row_of_alike halike, wellDescribed h, wellDescribed h', ?_⟩
  intro w w' clock response m hw hclock
  exact (run_redescribed hw hclock response m).2

/-- A drawing as the model writes it. -/
def drawnBars : String := "\x7b\"type\": \"bar\"\x7d"

/-- A model that has no statement to offer, and says the same of any rows. -/
def describer (answer : Except Error String) : Collaborators :=
  { bare with
    model ask := if ask.maxTokens = 512 then answer else .error (.model "no statement")
    execute _ _ _ := .ok [.ofList [("total", .number (.int 3))]] }

/-- What a request has from such a model. -/
def describedRun (answer : Except Error String) : Except Error Answer × Memory :=
  (create .standard 1 1 "how much").run ((describer answer).answer firstMoment "r-1")
    { limiter := .standard, store := .empty }

/-- The calls it makes for it. -/
def describedEvents (answer : Except Error String) : List Event :=
  (create .standard 1 1 "how much").history ((describer answer).answer firstMoment "r-1")
    { limiter := .standard, store := .empty }

theorem sameSave_describer (answer answer' : Except Error String) :
    SameSave (describer answer) (describer answer') :=
  ⟨rfl, rfl, rfl, rfl, fun _ _ _ => rfl, fun _ _ _ _ _ => rfl⟩

/-- A model that draws a graph, and one that says nothing. -/
theorem descriptions_isolated_describer :
    let drawn := describedRun (.ok drawnBars)
    let silent := describedRun (.error (.model "no answer"))
    SameEnd drawn.1 silent.1 ∧
      drawn.1.toOption.map (fun a => (a.sql, a.text, a.graph.isSome)) =
        some (some "SELECT 1 LIMIT 101", some drawnBars, true) ∧
      silent.1.toOption.map (fun a => (a.sql, a.text, a.graph.isSome)) =
        some (some "SELECT 1 LIMIT 101", none, false) := by
  intro drawn silent
  have hpath (answer : Except Error String) :
      Path (create .standard 1 1 "how much") (describedEvents answer)
        (done (describedRun answer).1) :=
    path_history ((describer answer).answer firstMoment "r-1") _ _
  have halike (answer answer' : Except Error String) :
      List.Forall₂ Alike (describedEvents answer) (describedEvents answer') :=
    (run_redescribed (sameSave_describer answer answer')
      (fun _ _ _ => (rfl : firstMoment = firstMoment)) "r-1" _).1
  obtain ⟨-, hend, -⟩ := descriptions_isolated (hpath (.ok drawnBars))
    (hpath (.error (.model "no answer"))) fun p hp _ =>
      (List.forall₂_iff_zip.1 (halike _ _)).2 hp
  exact ⟨hend, by decide +kernel, by decide +kernel⟩

end Querent.Pipeline
