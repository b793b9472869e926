import Querent.Proofs.Catalog.RowServer
import Querent.Proofs.Catalog.Saved
import Querent.Proofs.Naming.Run

/-! Two runs at once that have the same stored catalogue named. Each loads it and saves it at once, and
in between it asks; the turns of the two come in any order. -/
namespace Querent.Naming

open Dialogue (Path Exchange Through)

/-- What one of two runs does, and what comes of it. -/
abbrev Turn := Exchange fun q : Bool × Step => q.2.Reply

/-- A turn of one of the runs. -/
def Turn.part (who : Bool) (e : Turn) : Option (Exchange Step.Reply) :=
  if e.1.1 = who then some ⟨e.1.2, e.2⟩ else none

/-- What one of the runs does, in order. -/
def partOf (who : Bool) (es : List Turn) : List (Exchange Step.Reply) := es.filterMap (Turn.part who)

/-- What a model has answered one of the runs. -/
def answersTo (who : Bool) (es : List Turn) : List (Except Error String) :=
  (partOf who es).filterMap fun
    | ⟨.ask _, r⟩ => some r
    | _ => none

/-- How a turn is taken, each run in its session: catalogues are loaded and saved in one go, and what
cannot be saved to its end leaves nothing. A model answers as it likes. -/
inductive Turned {σ : Type} (S : Catalog.Server σ) (session : Bool → Nat) (w : Int) :
    σ → Turn → σ → Prop
  | loads (s : σ) (who : Bool) :
      Turned S session w s
        ⟨(who, .load w), ((Catalog.load (session who) w).run.run S.answer s).1⟩
        ((Catalog.load (session who) w).run.run S.answer s).2
  | unloaded (s : σ) (who : Bool) (e : Error) : Turned S session w s ⟨(who, .load w), .error e⟩ s
  | asks (s : σ) (who : Bool) (a : Llm.Ask) (r : Except Error String) :
      Turned S session w s ⟨(who, .ask a), r⟩ s
  | saves (s : σ) (who : Bool) (x : Snapshot) (u : Unit)
      (ended : ((Catalog.saveNames (session who) x).run.run S.answer s).1 = .ok u) :
      Turned S session w s ⟨(who, .save x), .ok u⟩
        ((Catalog.saveNames (session who) x).run.run S.answer s).2
  | unsaved (s : σ) (who : Bool) (x : Snapshot) (e : Error) :
      Turned S session w s ⟨(who, .save x), .error e⟩ s

/-- Two runs take their turns and both come to a good end. -/
structure Interleaved {σ : Type} (S : Catalog.Server σ) (session : Bool → Nat) (w : Int) (s : σ)
    (es : List Turn) (s' : σ) : Prop where
  through : Through (Turned S session w) s es s'
  ran : ∀ who, Path (rename w) (partOf who es) (.done (.ok ()))

/-- An answer that leaves any table as it is. -/
def Useless (answer : Except Error String) : Prop := ∀ t, afterAnswer t answer = t

/-- An answer that is none, or no suggestion, is of no use. -/
theorem useless_of_error {answer : Except Error String} {e : Error}
    (h : answer.bind parse = .error e) : Useless answer := by
  intro t
  rw [afterAnswer, h]

theorem getElem?_afterAnswers {x : Snapshot} {answers : List (Except Error String)} {i : Nat}
    {answer : Except Error String} (hi : answers[i]? = some answer) (h : Useless answer) :
    (x.afterAnswers answers).tables[i]? = x.tables[i]? := by
  show (List.zipWith afterAnswer x.tables answers)[i]? = _
  rw [List.getElem?_zipWith, hi]
  cases x.tables[i]? with
  | none => rfl
  | some t => exact congrArg some (h t)

/-! ### The turns of a run -/

section Turns

variable {who last : Bool} {w : Int} {e : Turn} {es a b c : List Turn} {x : Snapshot}
  {asks : List Asked} {q : Step} {r : q.Reply}

theorem part_eq_some : Turn.part who e = some ⟨q, r⟩ ↔ e = ⟨(who, q), r⟩ := by
  obtain ⟨⟨who', q'⟩, r'⟩ := e
  constructor
  · intro h
    rw [Turn.part] at h
    split at h
    · next hwho =>
      cases h
      cases hwho
      rfl
    · cases h
  · rintro h
    cases h
    exact if_pos rfl

theorem mem_partOf : (⟨q, r⟩ : Exchange Step.Reply) ∈ partOf who es ↔
    (⟨(who, q), r⟩ : Turn) ∈ es := by
  simp only [partOf, List.mem_filterMap, part_eq_some, exists_eq_right]

theorem partOf_append : partOf who (a ++ b) = partOf who a ++ partOf who b := List.filterMap_append

theorem partOf_eq_nil (h : partOf who es = []) (he : e ∈ es) : e.1.1 = !who := by
  by_contra hne
  have hwho : e.1.1 = who := by
    revert hne
    cases e.1.1 <;> cases who <;> decide
  have hmem : (⟨e.1.2, e.2⟩ : Exchange Step.Reply) ∈ partOf e.1.1 es := mem_partOf.2 he
  rw [hwho, h] at hmem
  cases hmem

/-- Every turn is one of the two runs'. -/
theorem eq_nil_of_partOf (h : ∀ who, partOf who es = []) : es = [] := by
  cases es with
  | nil => rfl
  | cons e es =>
    have htrue := partOf_eq_nil (h true) List.mem_cons_self
    have hfalse := partOf_eq_nil (h false) List.mem_cons_self
    rw [htrue] at hfalse
    cases hfalse

/-- A run's last turn and those before it. -/
theorem split_partOf {p : List (Exchange Step.Reply)} (h : partOf who es = p ++ [⟨q, r⟩]) :
    ∃ a c, es = a ++ ⟨(who, q), r⟩ :: c ∧ partOf who a = p ∧ partOf who c = [] := by
  obtain ⟨a, rest, rfl, ha, hrest⟩ := List.filterMap_eq_append_iff.1 h
  obtain ⟨others, e, c, rfl, hothers, he, hc⟩ := List.filterMap_eq_cons_iff.1 hrest
  obtain rfl := part_eq_some.1 he
  refine ⟨a ++ others, c, by simp, ?_, hc⟩
  rw [partOf_append, show partOf who others = [] from List.filterMap_eq_nil_iff.2 hothers,
    List.append_nil]
  exact ha

theorem partOf_cons_other (h : e.1.1 = !who) : partOf who (e :: es) = partOf who es := by
  refine List.filterMap_cons_none (if_neg ?_)
  rw [h]
  cases who <;> decide

/-- Behind the last turn of either run there is nothing. -/
theorem last_behind (last : Bool) {p : List (Exchange Step.Reply)} {q' : Step} {r' : q'.Reply}
    (hothers : partOf (!last) (b ++ ⟨(last, q), r⟩ :: c) = [])
    (hlast : partOf last (a ++ ⟨(!last, q'), r'⟩ :: b) = p) (hc : partOf last c = []) :
    c = [] ∧ partOf (!last) b = [] ∧ partOf last (a ++ b) = p := by
  rw [partOf_append, List.append_eq_nil_iff, partOf_cons_other (by simp)] at hothers
  rw [partOf_append, partOf_cons_other rfl, ← partOf_append] at hlast
  refine ⟨eq_nil_of_partOf fun who => ?_, hothers.1, hlast⟩
  rcases Bool.eq_or_eq_not who last with rfl | rfl
  · exact hc
  · exact hothers.2

/-- One of the runs has the last turn of all, behind the last turn of the other. -/
theorem exists_last {p : Bool → List (Exchange Step.Reply)} {q : Bool → Step}
    {r : (who : Bool) → (q who).Reply} (h : ∀ who, partOf who es = p who ++ [⟨q who, r who⟩]) :
    ∃ last a b, es = a ++ ⟨(!last, q !last), r !last⟩ :: (b ++ [⟨(last, q last), r last⟩]) ∧
      partOf (!last) a = p !last ∧ partOf (!last) b = [] ∧ partOf last (a ++ b) = p last := by
  obtain ⟨a, c, hes, ha, hc⟩ := split_partOf (h true)
  obtain ⟨a', c', hes', ha', hc'⟩ := split_partOf (h false)
  -- whichever of the two comes later
  rcases List.append_eq_append_iff.1 (hes.symm.trans hes') with ⟨k, hk, hk'⟩ | ⟨k, hk, hk'⟩
  · cases k with
    | nil => cases hk'
    | cons e k =>
      obtain ⟨rfl, rfl⟩ := List.cons.inj hk'
      subst hk
      obtain ⟨rfl, hb, hlast⟩ := last_behind false hc ha' hc'
      exact ⟨false, a, k, hes, ha, hb, hlast⟩
  · cases k with
    | nil => cases hk'
    | cons e k =>
      obtain ⟨rfl, rfl⟩ := List.cons.inj hk'
      subst hk
      obtain ⟨rfl, hb, hlast⟩ := last_behind true hc' ha hc
      exact ⟨true, a', k, hes', ha', hb, hlast⟩

end Turns

/-! ### The rows in the course of the turns -/

def Step.isSave : Step → Bool
  | save _ => true
  | _ => false

section Rows

variable {σ : Type} {S : Catalog.Server σ} {session : Bool → Nat} {w : Int} {s s' : σ}
  {es a b : List Turn} {who : Bool} {x : Snapshot}

/-- As long as nothing is saved the rows stay, and what is loaded is what they say. -/
theorem stored_of_quiet (hS : S.Runs) (hw : S.holds w) (h : Through (Turned S session w) s es s')
    (hs : (S.stored s).Allowed) (hquiet : ∀ e ∈ es, e.1.2.isSave = false) :
    S.stored s' = S.stored s ∧
      ∀ who x, (⟨(who, .load w), .ok x⟩ : Turn) ∈ es → x = (S.stored s).snapshot w := by
  induction h with
  | nil s => exact ⟨rfl, fun who x hx => by cases hx⟩
  | @cons s s₁ s' e es first rest ih =>
    obtain ⟨hfirst, hrest⟩ := List.forall_mem_cons.1 hquiet
    have hkept : S.stored s₁ = S.stored s := by
      cases first with
      | loads who => exact (hS.load (session who) hw hs).2
      | unloaded => rfl
      | asks => rfl
      | saves => cases hfirst
      | unsaved => rfl
    have hloaded : ∀ who x, e = ⟨(who, .load w), .ok x⟩ → x = (S.stored s).snapshot w := by
      rintro who x rfl
      generalize hr : (Except.ok x : Except Error Snapshot) = r at first
      cases first with
      | loads =>
        rw [(hS.load (session who) hw hs).1] at hr
        cases hr
        rfl
      | unloaded => cases hr
    obtain ⟨hstored, hloads⟩ := ih (hkept ▸ hs) hrest
    rw [hkept] at hstored hloads
    refine ⟨hstored, fun who x hx => ?_⟩
    rcases List.mem_cons.1 hx with heq | hx
    · exact hloaded who x heq.symm
    · exact hloads who x hx

theorem stored_of_saved (hS : S.Runs)
    (h : Turned S session w s ⟨(who, .save x), .ok ()⟩ s') :
    S.stored s' = (S.stored s).saved x := by
  cases h with
  | saves _ _ _ ended => exact hS.save ended

/-- Turns that save nothing, and then a save. -/
theorem exists_saved (hS : S.Runs) (hw : S.holds w) (hs : (S.stored s).Allowed)
    (h : Through (Turned S session w) s (a ++ ⟨(who, .save x), .ok ()⟩ :: b) s')
    (hquiet : ∀ e ∈ a, e.1.2.isSave = false) :
    ∃ s₁, (∀ who y, (⟨(who, .load w), .ok y⟩ : Turn) ∈ a → y = (S.stored s).snapshot w) ∧
      S.stored s₁ = (S.stored s).saved x ∧ Through (Turned S session w) s₁ b s' := by
  obtain ⟨s₀, hfirst, hrest⟩ := h.of_append
  obtain ⟨hkept, hloads⟩ := stored_of_quiet hS hw hfirst hs hquiet
  cases hrest with
  | @cons _ s₁ _ _ _ hsave hrest =>
    exact ⟨s₁, hloads, by rw [stored_of_saved hS hsave, hkept], hrest⟩

theorem answersTo_eq {asks : List Asked} {y : Snapshot} {saved : Except Error Unit}
    (h : partOf who es =
      ⟨.load w, .ok x⟩ :: (asks.map Step.asked ++ [⟨.save y, saved⟩])) :
    answersTo who es = asks.map (·.2) := by
  rw [answersTo, h, List.filterMap_cons_none rfl, List.filterMap_append, List.filterMap_map,
    List.filterMap_cons_none rfl, List.filterMap_nil, List.append_nil]
  exact congrFun List.filterMap_eq_map asks

theorem unnamed_afterAnswers {answers : List (Except Error String)}
    (h : answers.length = x.tables.length) : (x.afterAnswers answers).unnamed = x.unnamed :=
  (Snapshot.renamed_afterAnswers h).unnamed_eq

theorem length_of_unnamed {y : Snapshot} (h : x.unnamed = y.unnamed) :
    x.tables.length = y.tables.length := by
  have htables := congrArg (fun x => x.tables.length) h
  simpa [Snapshot.unnamed] using htables

/-- One run is over before the other begins. -/
def Follows (last : Bool) (es : List Turn) : Prop :=
  ∃ a b, es = a ++ b ∧ (∀ e ∈ a, e.1.1 = !last) ∧ ∀ e ∈ b, e.1.1 = last

/-- Between its load and its save, which is the last turn of all, a run has had the other's save. -/
def Overlaps (last : Bool) (w : Int) (loaded others saved : Snapshot) (es : List Turn) : Prop :=
  ∃ a b c, es = a ++ ⟨(last, .load w), .ok loaded⟩ ::
    (b ++ ⟨(!last, .save others), .ok ()⟩ :: (c ++ [⟨(last, .save saved), .ok ()⟩]))

theorem follows_of {last : Bool} {q q' : Step} {r : q.Reply} {r' : q'.Reply}
    (hes : es = a ++ ⟨(!last, q), r⟩ :: (b ++ [⟨(last, q'), r'⟩])) (ha : partOf last a = [])
    (hb : partOf (!last) b = []) : Follows last es := by
  refine ⟨a ++ [⟨(!last, q), r⟩], b ++ [⟨(last, q'), r'⟩], by simpa using hes, ?_, ?_⟩
  · exact List.forall_mem_append.2
      ⟨fun e he => partOf_eq_nil ha he, List.forall_mem_singleton.2 rfl⟩
  · refine List.forall_mem_append.2 ⟨fun e he => ?_, List.forall_mem_singleton.2 rfl⟩
    rw [partOf_eq_nil hb he, Bool.not_not]

theorem overlaps_of {last : Bool} {loaded others saved : Snapshot}
    (hes : es = a ++ ⟨(!last, .save others), .ok ()⟩ :: (b ++ [⟨(last, .save saved), .ok ()⟩]))
    (hload : ⟨(last, .load w), .ok loaded⟩ ∈ a) : Overlaps last w loaded others saved es := by
  obtain ⟨a₁, a₂, rfl⟩ := List.append_of_mem hload
  exact ⟨a₁, a₂, b, by simpa using hes⟩

/-- The turns of two runs: what each has loaded, and the two saves with nothing saved around them. -/
theorem Interleaved.turns (h : Interleaved S session w s es s') :
    ∃ (last : Bool) (x : Bool → Snapshot) (a b : List Turn),
      es = a ++ ⟨(!last, .save ((x !last).afterAnswers (answersTo (!last) es))), .ok ()⟩ ::
        (b ++ [⟨(last, .save ((x last).afterAnswers (answersTo last es))), .ok ()⟩]) ∧
      (∀ who, (answersTo who es).length = (x who).tables.length) ∧
      (∀ e ∈ a ++ b, e.1.2.isSave = false) ∧ ⟨(!last, .load w), .ok (x !last)⟩ ∈ a ∧
      partOf (!last) b = [] ∧
      (partOf last a = [] ∧ ⟨(last, .load w), .ok (x last)⟩ ∈ b ∨
        ⟨(last, .load w), .ok (x last)⟩ ∈ a) := by
  choose x asks hran hlength using fun who => path_rename (h.ran who)
  have hanswers (who : Bool) : answersTo who es = (asks who).map (·.2) := answersTo_eq (hran who)
  obtain ⟨last, a, b, hes, ha, hb, hlast⟩ := exists_last
    (p := fun who => ⟨.load w, .ok (x who)⟩ :: (asks who).map Step.asked)
    (q := fun who => .save ((x who).afterAnswers (answersTo who es))) (r := fun _ => .ok ())
    fun who => by
      rw [hanswers]
      exact hran who
  refine ⟨last, x, a, b, hes, fun who => ?_, fun e he => ?_, ?_, hb, ?_⟩
  · rw [hanswers, List.length_map, hlength]
  · have hpart (who : Bool) : partOf who (a ++ b) =
        ⟨.load w, .ok (x who)⟩ :: (asks who).map Step.asked := by
      rcases Bool.eq_or_eq_not who last with rfl | rfl
      · exact hlast
      · rw [partOf_append, ha, hb, List.append_nil]
    have hmem : (⟨e.1.2, e.2⟩ : Exchange Step.Reply) ∈ partOf e.1.1 (a ++ b) := mem_partOf.2 he
    rw [hpart, List.mem_cons, List.mem_map] at hmem
    rcases hmem with heq | ⟨asked, -, heq⟩
    · rw [(Sigma.mk.inj heq).1]
      rfl
    · rw [← (Sigma.mk.inj heq).1]
      rfl
  · exact mem_partOf.1 (ha ▸ List.mem_cons_self)
  · rw [partOf_append] at hlast
    rcases hnone : partOf last a with _ | ⟨first, rest⟩
    · rw [hnone, List.nil_append] at hlast
      exact .inl ⟨rfl, mem_partOf.1 (hlast ▸ List.mem_cons_self)⟩
    · rw [hnone] at hlast
      obtain ⟨rfl, -⟩ := List.cons.inj hlast
      exact .inr (mem_partOf.1 (hnone ▸ List.mem_cons_self))

/-- Two runs at once that name the stored catalogue of a workspace, each answered once for each of its
tables. The run that saves last leaves what it has loaded after its own answers, the tables for which it
got nothing of use as it had loaded them. If it began when the other was over, these are as the other
left them. If it had loaded before the other saved, they are as both found them: the names that the
other stored for them are undone. -/
theorem interleaved_runs (hS : S.Runs) (hw : S.holds w) (hs : (S.stored s).Allowed)
    (h : Interleaved S session w s es s') :
    let before := (S.stored s).snapshot w
    let after := (S.stored s').snapshot w
    ∃ last : Bool,
      let mine := answersTo last es
      let theirs := before.afterAnswers (answersTo (!last) es)
      mine.length = before.tables.length ∧
        (answersTo (!last) es).length = before.tables.length ∧
        (Follows last es ∧ after = theirs.afterAnswers mine ∧
            (∀ (i : Nat) answer, mine[i]? = some answer → Useless answer →
              after.tables[i]? = theirs.tables[i]?) ∨
          Overlaps last w before theirs after es ∧ after = before.afterAnswers mine ∧
            ∀ (i : Nat) answer, mine[i]? = some answer → Useless answer →
              after.tables[i]? = before.tables[i]?) := by
  intro before after
  obtain ⟨last, x, a, b, hes, hlength, hquiet, hothers, hbother, hmine⟩ := h.turns
  obtain ⟨s₁, hloads, hs₁, hrest⟩ :=
    exists_saved hS hw hs (hes ▸ h.through) fun e he => hquiet e (by simp [he])
  have hallowed₁ : (S.stored s₁).Allowed := hs₁ ▸ hs.saved _
  obtain ⟨s₂, hloads₁, hs₂, hnone⟩ :=
    exists_saved hS hw hallowed₁ hrest fun e he => hquiet e (by simp [he])
  cases hnone
  have hfound : x (!last) = before := hloads _ _ hothers
  have hotherLength := hlength !last
  rw [hfound] at hes hs₁ hotherLength
  let theirs := before.afterAnswers (answersTo (!last) es)
  have hsame : theirs.unnamed = before.unnamed := unnamed_afterAnswers hotherLength
  have htheirs : (S.stored s₁).snapshot w = theirs := by
    rw [hs₁]
    exact Catalog.Stored.snapshot_saved_of_unnamed rfl hsame hs
  have hafter (hworkspace : (x last).workspace = w) (hx : (x last).unnamed = before.unnamed) :
      after = (x last).afterAnswers (answersTo last es) := by
    show (S.stored s').snapshot w = _
    rw [hs₂]
    refine Catalog.Stored.snapshot_saved_of_unnamed hworkspace ?_ hallowed₁
    rw [htheirs, unnamed_afterAnswers (hlength last), hx, hsame]
  have hlengths : theirs.tables.length = before.tables.length := length_of_unnamed hsame
  rcases hmine with ⟨hnone, hload⟩ | hload
  · have hx : x last = theirs := (hloads₁ _ _ hload).trans htheirs
    have hend : after = theirs.afterAnswers (answersTo last es) :=
      hx ▸ hafter (by rw [hx]; rfl) (by rw [hx, hsame])
    refine ⟨last, by rw [hlength, hx, hlengths], hotherLength,
      .inl ⟨follows_of hes hnone hbother, hend, ?_⟩⟩
    intro i answer hi huseless
    rw [hend, getElem?_afterAnswers hi huseless]
  · have hx : x last = before := hloads _ _ hload
    have hend : after = before.afterAnswers (answersTo last es) :=
      hx ▸ hafter (by rw [hx]; rfl) (by rw [hx])
    rw [hx] at hes hload
    refine ⟨last, by rw [hlength, hx], hotherLength,
      .inr ⟨?_, hend, fun i answer hi huseless => ?_⟩⟩
    · rw [hend]
      exact overlaps_of hes hload
    · rw [hend, getElem?_afterAnswers hi huseless]

end Rows

/-! ### Names that are undone -/

theorem rowServer_ended {x : Snapshot} {c : Catalog.Statement} (hc : c ∈ Catalog.naming x)
    (session : Nat) (s : Catalog.Stored) :
    (Catalog.rowServer.ask session c s).1.ended = .ok 0 := by
  show (Catalog.RowServer.query c.sql c.params s).1.ended = _
  rcases Catalog.mem_naming hc with ⟨t, -, rfl⟩ | ⟨t, -, column, -, rfl⟩
  · rw [Catalog.Statement.sql_nameTable, Catalog.RowServer.query_nameTable]
    rfl
  · rw [Catalog.Statement.sql_nameColumn, Catalog.RowServer.query_nameColumn]
    rfl

theorem rowServer_changes {x : Snapshot} {cs : List Catalog.Statement}
    (hcs : ∀ c ∈ cs, c ∈ Catalog.naming x) (session : Nat) (s : Catalog.Stored) :
    ((cs.forM (Catalog.change session)).run.run Catalog.rowServer.answer s).1 = .ok () := by
  induction cs generalizing s with
  | nil => rfl
  | cons c cs ih =>
    obtain ⟨hc, hrest⟩ := List.forall_mem_cons.1 hcs
    have hcons : (c :: cs).forM (Catalog.change session) =
      Catalog.change session c >>= fun _ => cs.forM (Catalog.change session) := rfl
    have hfirst : (Catalog.change session c).run.run Catalog.rowServer.answer s =
        (.ok (), (Catalog.rowServer.ask session c s).2) := by
      rw [Catalog.Server.run_change, rowServer_ended hc]
      rfl
    rw [hcons, Dialogue.run_bind_ok hfirst, ih hrest]

/-- What is saved on a server of rows is saved. -/
theorem rowServer_save (session : Nat) (x : Snapshot) (s : Catalog.Stored) :
    (Catalog.saveNames session x).run.run Catalog.rowServer.answer s = (.ok (), s.saved x) := by
  have hok : ((Catalog.saveNames session x).run.run Catalog.rowServer.answer s).1 = .ok () := by
    have hchanges := rowServer_changes (fun c hc => hc) session s (x := x)
    have hbegin : (Database.Attempt.command session "BEGIN").run.run Catalog.rowServer.answer s =
        (.ok (), s) := rfl
    rw [Catalog.saveNames, Dialogue.run_adapt, Dialogue.run_bind_ok hbegin,
      Dialogue.run_bind_ok (Prod.ext hchanges rfl)]
    rfl
  exact Prod.ext hok (Catalog.rowServer_runs.save hok)

/-- A table of a workspace that has no names yet. -/
def orders : Catalog.Stored where
  workspaces := [7]
  tables := [⟨1, 7, "public", "orders", none, none⟩]
  columns := []
  keys := []

theorem allowed_orders : orders.Allowed := by
  constructor <;> decide

def plainTable : Table :=
  { schema := "public", name := "orders", businessName := none, description := none, columns := [] }

def plainSnapshot : Snapshot := { workspace := 7, tables := [plainTable], foreignKeys := [] }

def goodAnswer : Except Error String :=
  .ok "\x7b\"table\":\x7b\"businessName\":\"Orders\"\x7d\x7d"

def namedSnapshot : Snapshot := plainSnapshot.afterAnswers [goodAnswer]

theorem snapshot_orders : orders.snapshot 7 = plainSnapshot := by
  simp [Catalog.Stored.snapshot, Catalog.Stored.tablesOf, Catalog.Stored.columnsOf,
    Catalog.Stored.keysOf, Catalog.Stored.joinedKeys, Catalog.sortedBy, orders, plainSnapshot,
    plainTable, Catalog.TableRow.table]

theorem names_namedSnapshot : namedSnapshot.tables.map (·.businessName) = [some "Orders"] := by
  decide +kernel

def question : Llm.Ask := Prompt.askNames plainTable []

def noAnswer : Except Error String := .error (.model "no answer")

/-- One run loads; the other loads, gets a name and saves it; then the first, which gets none, saves. -/
def undoing : List Turn :=
  [⟨(true, .load 7), .ok plainSnapshot⟩, ⟨(false, .load 7), .ok plainSnapshot⟩,
    ⟨(false, .ask question), goodAnswer⟩, ⟨(false, .save namedSnapshot), .ok ()⟩,
    ⟨(true, .ask question), noAnswer⟩, ⟨(true, .save plainSnapshot), .ok ()⟩]

theorem rowServer_holds_seven : Catalog.rowServer.holds 7 := by
  unfold Catalog.rowServer
  decide +kernel

theorem interleaved_undoing :
    Interleaved Catalog.rowServer (fun _ => 0) 7 orders undoing
      ((orders.saved namedSnapshot).saved plainSnapshot) := by
  have hload : (Catalog.load 0 7).run.run Catalog.rowServer.answer orders =
      (.ok plainSnapshot, orders) := by
    obtain ⟨hrun, hkept⟩ := Catalog.rowServer_runs.load 0 rowServer_holds_seven
      (s := orders) allowed_orders
    exact Prod.ext (hrun.trans (congrArg _ snapshot_orders)) hkept
  have hloads (who : Bool) : Turned Catalog.rowServer (fun _ => 0) 7 orders
      ⟨(who, .load 7), .ok plainSnapshot⟩ orders := by
    have hturn : Turned Catalog.rowServer (fun _ => 0) 7 orders _ _ := .loads orders who
    rwa [hload] at hturn
  have hsaves (who : Bool) (x : Snapshot) (s : Catalog.Stored) :
      Turned Catalog.rowServer (fun _ => 0) 7 s ⟨(who, .save x), .ok ()⟩ (s.saved x) := by
    have hturn : Turned Catalog.rowServer (fun _ => 0) 7 s _ _ :=
      .saves s who x () (by rw [rowServer_save])
    rwa [rowServer_save] at hturn
  refine ⟨?_, fun who => ?_⟩
  · exact .cons (hloads true) (.cons (hloads false) (.cons (.asks _ _ _ _)
      (.cons (hsaves _ _ _) (.cons (.asks _ _ _ _) (.cons (hsaves _ _ _) (.nil _))))))
  · cases who with
    | false => exact path_rename_of 7 (show [goodAnswer].length = plainSnapshot.tables.length from rfl)
    | true => exact path_rename_of 7 (show [noAnswer].length = plainSnapshot.tables.length from rfl)

theorem interleaved_runs_undoing :
    Catalog.rowServer.holds 7 ∧ orders.Allowed ∧ ∃ last : Bool,
      (answersTo last undoing).length = 1 ∧
        (Follows last undoing ∨ Overlaps last 7 plainSnapshot
          (plainSnapshot.afterAnswers (answersTo (!last) undoing))
          (((orders.saved namedSnapshot).saved plainSnapshot).snapshot 7) undoing) := by
  obtain ⟨last, hmine, -, hruns⟩ := interleaved_runs Catalog.rowServer_runs rowServer_holds_seven
    (s := orders) allowed_orders interleaved_undoing
  have hbefore : (Catalog.rowServer.stored orders).snapshot 7 = plainSnapshot := snapshot_orders
  rw [hbefore] at hmine hruns
  refine ⟨rowServer_holds_seven, allowed_orders, last, hmine, ?_⟩
  exact hruns.imp And.left And.left

/-- Both runs come to a good end, and the one that got no name for the table writes it all the same: the
name that the other has stored in between is gone. -/
theorem names_undone :
    Interleaved Catalog.rowServer (fun _ => 0) 7 orders undoing
        ((orders.saved namedSnapshot).saved plainSnapshot) ∧
      answersTo true undoing = [noAnswer] ∧ Useless noAnswer ∧
      Catalog.naming plainSnapshot = [.nameTable 7 plainTable] ∧
      ((orders.saved namedSnapshot).snapshot 7).tables.map (·.businessName) = [some "Orders"] ∧
      (((orders.saved namedSnapshot).saved plainSnapshot).snapshot 7).tables.map (·.businessName) =
        [none] := by
  have hunnamed : namedSnapshot.unnamed = plainSnapshot.unnamed := unnamed_afterAnswers rfl
  have hloaded : (orders.saved namedSnapshot).snapshot 7 = namedSnapshot :=
    Catalog.Stored.snapshot_saved_of_unnamed rfl (by rw [hunnamed, snapshot_orders]) allowed_orders
  have hundone : ((orders.saved namedSnapshot).saved plainSnapshot).snapshot 7 = plainSnapshot :=
    Catalog.Stored.snapshot_saved_of_unnamed rfl (by rw [hloaded, hunnamed]) (allowed_orders.saved _)
  refine ⟨interleaved_undoing, rfl, useless_of_error rfl, rfl, ?_, ?_⟩
  · rw [hloaded]
    exact names_namedSnapshot
  · rw [hundone]
    rfl

end Querent.Naming
