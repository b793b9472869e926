import Querent.Prompt.Basic
import Querent.Proofs.Prompt.Lead
import Querent.Proofs.Text.Blank
import Querent.Proofs.Text.Replaced

/-! What stands in a template once its places are filled one name after the other. Each value comes to
stand at its own place and nowhere else, and is then filled itself with the values of the names that
follow. So a template says what it is given exactly as far as no value holds a later place. -/
namespace Querent.Prompt

open Text

/-- A character of a template's own, or the place of a name. -/
inductive Piece where
  | own (c : Char)
  | place (name : String)
deriving DecidableEq

variable {names : List String} {n m : String} {v x : List Char} {c : Char} {s t : List Char}
  {values : List (String × String)} {f g : String → List Char} {ps : List Piece}

/-! ### Filling all places at once -/

/-- A text at the places of some names: each character of its own, and each place as its name. While
a place is passed, `skip` of its characters are still to come. -/
def piecesFrom (names : List String) : (skip : Nat) → List Char → List Piece
  | _, [] => []
  | skip + 1, _ :: cs => piecesFrom names skip cs
  | 0, c :: cs =>
    match names.find? fun n => (place n).toList.isPrefixOf (c :: cs) with
    | some n => .place n :: piecesFrom names ((place n).toList.length - 1) cs
    | none => .own c :: piecesFrom names 0 cs

/-- The text of pieces with something in the place of each name. -/
def render (f : String → List Char) (ps : List Piece) : List Char :=
  ps.flatMap fun
    | .own c => [c]
    | .place n => f n

/-- A template with each value at the places of its name, and nothing else changed. -/
def substitute (values : List (String × String)) (template : String) : String :=
  .ofList (render (fun n => ((values.lookup n).getD (place n)).toList)
    (piecesFrom (values.map (·.1)) 0 template.toList))

/-- Values as they come to stand: each filled with those of the names behind it. -/
def settle : List (String × String) → List (String × String)
  | [] => []
  | (n, v) :: rest => (n, fill v rest) :: settle rest

/-- No value holds the place of a name behind its own. -/
def Undisturbed (values : List (String × String)) : Prop :=
  values.Pairwise fun e later => ¬ (place later.1).toList <:+: e.2.toList

@[simp] theorem render_nil : render f [] = [] := rfl

@[simp] theorem render_own : render f (.own c :: ps) = c :: render f ps := rfl

@[simp] theorem render_place : render f (.place n :: ps) = f n ++ render f ps := rfl

theorem toList_place (n : String) :
    (place n).toList = '\x7b' :: '\x7b' :: (n.toList ++ ['\x7d', '\x7d']) := by
  simp [place]

/-- With each place put back the pieces are the text. -/
theorem render_piecesFrom (names : List String) (skip : Nat) (s : List Char) :
    render (fun n => (place n).toList) (piecesFrom names skip s) = s.drop skip := by
  induction s generalizing skip with
  | nil => cases skip <;> rfl
  | cons c s ih =>
    cases skip with
    | succ skip => exact ih skip
    | zero =>
      unfold piecesFrom
      split
      · rename_i n hfind
        have hprefix : (place n).toList <+: c :: s :=
          List.isPrefixOf_iff_prefix.1 (by simpa using List.find?_some hfind)
        obtain ⟨rest, hrest⟩ := hprefix
        have hdrop : s.drop ((place n).toList.length - 1) = rest := by
          have hwhole : (c :: s).drop (place n).toList.length = rest := by
            rw [← hrest, List.drop_left]
          rw [← hwhole, toList_place]
          rfl
        rw [render_place, ih, hdrop, hrest, List.drop_zero]
      · rw [render_own, ih, List.drop_zero, List.drop_zero]

theorem mem_of_place_mem {skip : Nat} (h : .place n ∈ piecesFrom names skip s) : n ∈ names := by
  induction s generalizing skip with
  | nil => cases skip <;> cases h
  | cons c s ih =>
    cases skip with
    | succ skip => exact ih h
    | zero =>
      unfold piecesFrom at h
      split at h
      · rename_i n' hfind
        rcases List.mem_cons.1 h with heq | hrest
        · rw [Piece.place.inj heq]
          exact List.mem_of_find?_eq_some hfind
        · exact ih hrest
      · exact ih ((List.mem_cons.1 h).resolve_left nofun)

theorem render_congr (h : ∀ n, .place n ∈ ps → f n = g n) : render f ps = render g ps := by
  unfold render
  refine List.flatMap_congr fun p hp => ?_
  cases p with
  | own c => rfl
  | place n => exact h n hp

/-! ### One name after the other -/

/-- A character that no place opens with, or that no place goes on with. -/
def opensNoPlace : Piece → Bool
  | .own c => c != '\x7b'
  | .place _ => false

/-- A character that is in the place of none of the names. -/
def isBreak (names : List String) : Piece → Bool
  | .own c => names.all fun n => !(place n).toList.contains c
  | .place _ => false

/-- Places that stand apart: behind each there is a character of its own or the end, and no brace of
the template runs on into one. -/
def apart (names : List String) : List Piece → Bool
  | [] => true
  | .own c :: rest => (c != '\x7b' || rest.head?.all opensNoPlace) && apart names rest
  | .place _ :: rest => rest.head?.all (isBreak names) && apart names rest

/-- A name without braces. -/
def isPlainName (n : String) : Bool := !n.toList.contains '\x7b' && !n.toList.contains '\x7d'

theorem place_ne_nil : (place n).toList ≠ [] := by
  rw [toList_place]
  exact List.cons_ne_nil _ _

/-- No place begins at a character that is no brace, or that no brace follows. -/
theorem not_prefix_own (h : (c != '\x7b' || ps.head?.all opensNoPlace) = true) (n : String) :
    ¬ (place n).toList <+: c :: render f ps := by
  intro hp
  rw [toList_place, List.cons_prefix_cons] at hp
  obtain ⟨rfl, hp⟩ := hp
  have hnext : ps.head?.all opensNoPlace = true := by simpa using h
  cases ps with
  | nil => exact absurd (List.prefix_nil.1 hp) (List.cons_ne_nil _ _)
  | cons p ps =>
    cases p with
    | own d =>
      rw [render_own, List.cons_prefix_cons] at hp
      simp [opensNoPlace, ← hp.1] at hnext
    | place m => simp [opensNoPlace] at hnext

theorem not_mem_of_isBreak (hn : n ∈ names) (h : isBreak names (.own c) = true) :
    c ∉ (place n).toList := by
  simpa using List.all_eq_true.1 h n hn

/-- Where places stand apart, replacing one goes on separately in what stands at each. -/
theorem replaceAll_render (hn : n ∈ names) (h : apart names ps = true) :
    replaceAll (place n).toList v (render f ps) =
      render (fun m => replaceAll (place n).toList v (f m)) ps := by
  induction ps with
  | nil => simp [replaceAll]
  | cons p ps ih =>
    cases p with
    | own c =>
      obtain ⟨hown, hrest⟩ := (Bool.and_eq_true _ _).mp h
      rw [render_own, render_own, replaceAll_cons (not_prefix_own hown n), ih hrest]
    | place m =>
      obtain ⟨hnext, hrest⟩ := (Bool.and_eq_true _ _).mp h
      cases ps with
      | nil => simp
      | cons p ps =>
        cases p with
        | own d =>
          -- behind the place stands a character that is in none, and parts the text there
          have hd : d ∉ (place n).toList := not_mem_of_isBreak hn hnext
          have hlead : ¬ (place n).toList <+: d :: render f ps := fun hp =>
            hd (by rw [toList_place] at hp ⊢; exact (List.cons_prefix_cons.1 hp).1 ▸ List.mem_cons_self)
          have ih := ih hrest
          rw [render_own, replaceAll_cons hlead] at ih
          rw [render_place, render_own, replaceAll_append_cons place_ne_nil hd, ih, render_place]
        | place m => exact absurd hnext (by simp [isBreak])

/-- The place of one name does not hold that of another. -/
theorem place_inj_of_occurs (hn : isPlainName n = true) (hm : isPlainName m = true)
    (h : (place n).toList <:+: (place m).toList) : n = m := by
  simp only [isPlainName, Bool.and_eq_true, Bool.not_eq_true', List.contains_eq_mem,
    decide_eq_false_iff_not] at hn hm
  have hclosing : '\x7b' ∉ m.toList ++ ['\x7d', '\x7d'] := by simp [hm.1]
  rw [toList_place, toList_place, List.infix_cons_iff] at h
  rcases h with hfront | hback
  · obtain ⟨-, hfront⟩ := List.cons_prefix_cons.1 hfront
    obtain ⟨-, rest, hrest⟩ := List.cons_prefix_cons.1 hfront
    -- both names end where the first closing brace stands
    have hname := congrArg (List.takeWhile (· != '\x7d')) hrest
    have hall {w : List Char} (hw : '\x7d' ∉ w) : ∀ c ∈ w, (c != '\x7d') = true := by
      intro c hc
      exact bne_iff_ne.2 fun heq => hw (heq ▸ hc)
    simp only [List.append_assoc] at hname
    rw [List.takeWhile_append_of_pos (hall hn.2), List.takeWhile_append_of_pos (hall hm.2)] at hname
    exact String.toList_inj.1 (by simpa using hname)
  · have hbrace : '\x7b' ∈ m.toList ++ ['\x7d', '\x7d'] := by
      rcases List.infix_cons_iff.1 hback with hp | hi
      · exact (List.cons_prefix_cons.1 hp).2.subset List.mem_cons_self
      · exact hi.subset List.mem_cons_self
    exact absurd hbrace hclosing

/-- One value after the other, as `fill` puts them into a text. -/
def fillFrom (values : List (String × String)) (text : List Char) : List Char :=
  values.foldl (fun text (name, value) => replaceAll (place name).toList value.toList text) text

theorem toList_fill (text : String) (values : List (String × String)) :
    (fill text values).toList = fillFrom values text.toList := String.toList_ofList

theorem fillFrom_render (hvalues : ∀ e ∈ values, e.1 ∈ names) (h : apart names ps = true) :
    fillFrom values (render f ps) = render (fun m => fillFrom values (f m)) ps := by
  induction values generalizing f with
  | nil => rfl
  | cons e values ih =>
    obtain ⟨he, hvalues⟩ := List.forall_mem_cons.1 hvalues
    have hstep := replaceAll_render (v := e.2.toList) (f := f) he h
    calc fillFrom (e :: values) (render f ps)
        = fillFrom values (replaceAll (place e.1).toList e.2.toList (render f ps)) := rfl
      _ = _ := by
        rw [hstep]
        exact ih hvalues

/-- At the place of a name comes to stand its value, filled with those of the names behind it. -/
theorem fillFrom_place (hvalues : ∀ n ∈ values.map (·.1), isPlainName n = true)
    (hm : isPlainName m = true) :
    fillFrom values (place m).toList = (((settle values).lookup m).getD (place m)).toList := by
  induction values with
  | nil => rfl
  | cons e values ih =>
    obtain ⟨n, w⟩ := e
    rw [List.map_cons] at hvalues
    obtain ⟨hn, hvalues⟩ := List.forall_mem_cons.1 hvalues
    have hstep : fillFrom ((n, w) :: values) (place m).toList =
        fillFrom values (replaceAll (place n).toList w.toList (place m).toList) := rfl
    rw [hstep, settle, List.lookup_cons]
    by_cases h : m = n
    · subst h
      have hself : replaceAll (place m).toList w.toList ((place m).toList ++ []) =
          w.toList ++ replaceAll (place m).toList w.toList [] := replaceAll_at_start place_ne_nil
      have hend : replaceAll (place m).toList w.toList [] = [] := by simp [replaceAll]
      rw [hend, List.append_nil, List.append_nil] at hself
      simp [hself, toList_fill]
    · have hother : ¬ (place n).toList <:+: (place m).toList := fun hinfix =>
        h (place_inj_of_occurs hn hm hinfix).symm
      have hkey : (m == n) = false := beq_eq_false_iff_ne.2 h
      rw [replaceAll_of_absent hother, ih hvalues, hkey]

theorem map_fst_settle (values : List (String × String)) :
    (settle values).map (·.1) = values.map (·.1) := by
  induction values with
  | nil => rfl
  | cons e values ih => simp [settle, ih]

/-- Filled one name after the other, a template says what its values have become. -/
theorem fill_eq_substitute {template : String} (hvalues : values.map (·.1) = names)
    (hnames : ∀ n ∈ names, isPlainName n = true)
    (h : apart names (piecesFrom names 0 template.toList) = true) :
    fill template values = substitute (settle values) template := by
  subst hvalues
  have hpieces := render_piecesFrom (values.map (·.1)) 0 template.toList
  rw [List.drop_zero] at hpieces
  have hmem : ∀ e ∈ values, e.1 ∈ values.map (·.1) := fun e he => List.mem_map_of_mem he
  have hall : fillFrom values template.toList = render (fun m => fillFrom values (place m).toList)
      (piecesFrom (values.map (·.1)) 0 template.toList) := by
    conv_lhs => rw [← hpieces]
    exact fillFrom_render hmem h
  unfold substitute
  rw [map_fst_settle]
  refine congrArg String.ofList (hall.trans (render_congr fun m hm => ?_))
  exact fillFrom_place hnames (hnames m (mem_of_place_mem hm))

/-! ### What stays as it was given -/

theorem fillFrom_eq_self (h : ∀ e ∈ values, ¬ (place e.1).toList <:+: s) : fillFrom values s = s := by
  induction values with
  | nil => rfl
  | cons e values ih =>
    obtain ⟨he, hvalues⟩ := List.forall_mem_cons.1 h
    have hstep : fillFrom (e :: values) s =
        fillFrom values (replaceAll (place e.1).toList e.2.toList s) := rfl
    rw [hstep, replaceAll_of_absent he, ih hvalues]

theorem settle_eq_self (h : Undisturbed values) : settle values = values := by
  induction values with
  | nil => rfl
  | cons e values ih =>
    obtain ⟨he, hvalues⟩ := List.pairwise_cons.1 h
    have hfill : fill e.2 values = e.2 := String.toList_inj.1 (by rw [toList_fill, fillFrom_eq_self he])
    rw [settle, hfill, ih hvalues]

/-! A character that stands in no place but in every value put in tells whether anything was put in:
there are more of it afterwards. -/

theorem count_le_count_fillFrom (hplaces : ∀ e ∈ values, c ∉ (place e.1).toList) (s : List Char) :
    s.count c ≤ (fillFrom values s).count c := by
  induction values generalizing s with
  | nil => exact Nat.le_refl _
  | cons e values ih =>
    obtain ⟨he, hvalues⟩ := List.forall_mem_cons.1 hplaces
    exact (count_le_count_replaceAll place_ne_nil he s).trans (ih hvalues _)

theorem not_infix_of_count_fillFrom (hplaces : ∀ e ∈ values, c ∉ (place e.1).toList)
    (hheld : ∀ e ∈ values, c ∈ e.2.toList) (h : (fillFrom values s).count c ≤ s.count c) :
    ∀ e ∈ values, ¬ (place e.1).toList <:+: s := by
  induction values with
  | nil => simp
  | cons e values ih =>
    obtain ⟨he, hvalues⟩ := List.forall_mem_cons.1 hplaces
    obtain ⟨hfirst, hothers⟩ := List.forall_mem_cons.1 hheld
    have hstep : fillFrom (e :: values) s =
        fillFrom values (replaceAll (place e.1).toList e.2.toList s) := rfl
    have hnot : ¬ (place e.1).toList <:+: s := by
      intro hinfix
      have hmore := count_lt_count_replaceAll place_ne_nil he hfirst hinfix
      have hrest := count_le_count_fillFrom hvalues (replaceAll (place e.1).toList e.2.toList s)
      rw [hstep] at h
      omega
    rw [hstep, replaceAll_of_absent hnot] at h
    exact List.forall_mem_cons.2 ⟨hnot, ih hvalues hothers h⟩

theorem count_render_le (h : ∀ m, (f m).count c ≤ (g m).count c) (ps : List Piece) :
    (render f ps).count c ≤ (render g ps).count c := by
  induction ps with
  | nil => exact Nat.le_refl _
  | cons p ps ih =>
    cases p with
    | own d =>
      rw [render_own, render_own, List.count_cons, List.count_cons]
      omega
    | place m =>
      have hm := h m
      rw [render_place, render_place, List.count_append, List.count_append]
      omega

theorem count_le_of_render_eq (h : ∀ m, (f m).count c ≤ (g m).count c)
    (heq : render g ps = render f ps) (hm : .place m ∈ ps) : (g m).count c ≤ (f m).count c := by
  obtain ⟨before, after, rfl⟩ := List.append_of_mem hm
  have hcount := congrArg (List.count c) heq
  have hbefore := count_render_le h before
  have hafter := count_render_le h after
  simp only [render, List.flatMap_append, List.flatMap_cons, List.count_append] at hcount hbefore hafter
  omega

theorem lookup_settle {before rest : List (String × String)} {w : String}
    (h : n ∉ before.map (·.1)) :
    (settle (before ++ (n, w) :: rest)).lookup n = some (fill w rest) := by
  induction before with
  | nil => simp [settle]
  | cons e before ih =>
    obtain ⟨hne, hbefore⟩ : n ≠ e.1 ∧ n ∉ before.map (·.1) := by simpa using h
    have hkey : (n == e.1) = false := beq_eq_false_iff_ne.2 hne
    rw [List.cons_append, settle, List.lookup_cons, hkey]
    exact ih hbefore

theorem lookup_append_cons {before rest : List (String × String)} {w : String}
    (h : n ∉ before.map (·.1)) : (before ++ (n, w) :: rest).lookup n = some w := by
  have hnone : before.lookup n = none := by
    refine List.lookup_eq_none_iff.2 fun e he => bne_iff_ne.2 ?_
    rintro rfl
    exact h (List.mem_map_of_mem he)
  rw [List.lookup_append, hnone, Option.none_or, List.lookup_cons_self]

theorem count_lookup_le (hplaces : ∀ e ∈ values, c ∉ (place e.1).toList) (m : String) :
    ((values.lookup m).getD (place m)).toList.count c ≤
      (((settle values).lookup m).getD (place m)).toList.count c := by
  induction values with
  | nil => exact Nat.le_refl _
  | cons e values ih =>
    obtain ⟨-, hvalues⟩ := List.forall_mem_cons.1 hplaces
    rw [settle, List.lookup_cons, List.lookup_cons]
    cases m == e.1 with
    | false => exact ih hvalues
    | true =>
      simp only [Option.getD_some, toList_fill]
      exact count_le_count_fillFrom hvalues _

theorem undisturbed_of_count (hplaces : ∀ e ∈ values, c ∉ (place e.1).toList)
    (hheld : ∀ e ∈ values.tail, c ∈ e.2.toList)
    (hcount : ∀ before n w rest, values = before ++ (n, w) :: rest →
      (fillFrom rest w.toList).count c ≤ w.toList.count c) : Undisturbed values := by
  induction values with
  | nil => exact .nil
  | cons e values ih =>
    obtain ⟨-, hrest⟩ := List.forall_mem_cons.1 hplaces
    have hown := hcount [] e.1 e.2 values rfl
    refine List.pairwise_cons.2 ⟨not_infix_of_count_fillFrom hrest hheld hown, ih hrest ?_ ?_⟩
    · exact fun e' he' => hheld e' (List.mem_of_mem_tail he')
    · intro before n w rest hvalues
      exact hcount (e :: before) n w rest (by rw [hvalues, List.cons_append])

/-- Where every value but the first holds a character that is in no place, a template that has a
place for each says what it is given only if no value holds a later place. -/
theorem undisturbed_of_substitute_eq {template : String} (hvalues : values.map (·.1) = names)
    (hnodup : names.Nodup) (hplaces : ∀ n ∈ names, c ∉ (place n).toList)
    (hheld : ∀ e ∈ values.tail, c ∈ e.2.toList)
    (hused : ∀ n ∈ names, .place n ∈ piecesFrom names 0 template.toList)
    (h : substitute (settle values) template = substitute values template) : Undisturbed values := by
  subst hvalues
  have hrender := String.ofList_inj.1 h
  rw [map_fst_settle] at hrender
  have hplaces : ∀ e ∈ values, c ∉ (place e.1).toList := fun e he =>
    hplaces e.1 (List.mem_map_of_mem he)
  have hcount (before : List (String × String)) (n w : String) (rest : List (String × String))
      (hvalues : values = before ++ (n, w) :: rest) :
      (fillFrom rest w.toList).count c ≤ w.toList.count c := by
    have hmem : n ∈ values.map (·.1) := by simp [hvalues]
    have hfresh : n ∉ before.map (·.1) := by
      rw [hvalues, List.map_append, List.map_cons] at hnodup
      exact fun hn => (List.nodup_append.1 hnodup).2.2 n hn n List.mem_cons_self rfl
    have hle := count_le_of_render_eq (count_lookup_le hplaces) hrender (hused n hmem)
    simpa [hvalues, lookup_settle hfresh, lookup_append_cons hfresh, toList_fill] using hle
  exact undisturbed_of_count hplaces hheld hcount

end Querent.Prompt
