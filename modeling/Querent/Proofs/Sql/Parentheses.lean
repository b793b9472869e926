import Querent.Proofs.Sql.Stretch

/-! Which parentheses belong together. The scanner that keeps the parentheses still open and the one
that counts how deep it stands agree on every text, whatever its quotes and stray parentheses: the first
finds the last group that is not closed, the second the parenthesis that closes a group. -/
namespace Querent.Sql

variable {s t u x y rest : List Char} {quote : Option Char} {c m : Char} {depth o p q : Nat}

/-! ### Quotes -/

/-- Text whose quotes are all closed. -/
inductive QuotesClosed : List Char → Prop where
  | nil : QuotesClosed []
  | char {c : Char} {s : List Char} (quote : isQuote c = false) (rest : QuotesClosed s) :
      QuotesClosed (c :: s)
  | quoted {m : Char} {n s : List Char} (isMark : isQuote m = true) (free : m ∉ n)
      (rest : QuotesClosed s) : QuotesClosed (m :: (n ++ m :: s))

theorem QuotesClosed.quoteAfter (hs : QuotesClosed s) : quoteAfter none s = none := by
  induction hs with
  | nil => rfl
  | char quote rest ih => rw [quoteAfter_cons, nextQuote_none quote, ih]
  | quoted isMark free rest ih => rw [quoteAfter_quoted isMark free, ih]

theorem quoteAfter_eq_none : quoteAfter none s = none ↔ QuotesClosed s := by
  refine ⟨fun h => ?_, QuotesClosed.quoteAfter⟩
  generalize hlength : s.length = n
  induction n using Nat.strong_induction_on generalizing s with
  | _ n ih =>
    cases s with
    | nil => exact .nil
    | cons c s =>
      rw [List.length_cons] at hlength
      by_cases hc : isQuote c = true
      · obtain ⟨w, u, rfl, hw⟩ := List.eq_append_cons_of_mem (mem_of_quoteAfter_cons hc h)
        have hshorter : u.length < n := by
          simp only [List.length_append, List.length_cons] at hlength
          omega
        rw [quoteAfter_quoted hc hw] at h
        exact .quoted hc hw (ih u.length hshorter h rfl)
      · rw [Bool.not_eq_true] at hc
        rw [quoteAfter_cons, nextQuote_none hc] at h
        exact .char hc (ih s.length (by omega) h rfl)

/-! ### The scanner that counts -/

theorem skipFrom_char (hc : isQuote c = false) (hopen : c ≠ '(') (hclose : c ≠ ')') :
    skipFrom depth none (c :: s) = skipFrom depth none s := by
  simp [skipFrom, hopen, hclose, nextQuote_none hc]

/-- Quotes that are not closed leave nothing to skip to. -/
theorem skipFrom_of_not_mem (h : m ∉ s) : skipFrom depth (some m) s = none := by
  induction s with
  | nil => rfl
  | cons c s ih =>
    obtain ⟨hc, hs⟩ : m ≠ c ∧ m ∉ s := by simpa using h
    rw [skipFrom_inside, nextQuote_inside (Ne.symm hc), ih hs]

/-- What the scanners tell apart in a character. -/
theorem scanned_cases (c : Char) : isQuote c = true ∨ c = '(' ∨ c = ')' ∨
    isQuote c = false ∧ c ≠ '(' ∧ c ≠ ')' := by
  cases isQuote c <;> simp
  tauto

/-- What is skipped from inside a group goes past the parenthesis that closes it. -/
theorem exists_of_skipFrom (h : skipFrom (depth + 1) none s = some rest) :
    ∃ g u, s = g ++ ')' :: u ∧ Nested g ∧ skipFrom (depth + 1) none (')' :: u) = some rest := by
  generalize hlength : s.length = n
  induction n using Nat.strong_induction_on generalizing s depth with
  | _ n ih =>
    cases s with
    | nil => simp [skipFrom] at h
    | cons c s =>
      rw [List.length_cons] at hlength
      rcases scanned_cases c with hquote | rfl | rfl | ⟨hquote, hopen, hclose⟩
      · rw [skipFrom_quote hquote] at h
        by_cases hmem : c ∈ s
        · obtain ⟨w, u, rfl, hw⟩ := List.eq_append_cons_of_mem hmem
          have hshorter : u.length < n := by
            simp only [List.length_append, List.length_cons] at hlength
            omega
          rw [skipFrom_quoted hw] at h
          obtain ⟨g, v, rfl, hg, hv⟩ := ih u.length hshorter h rfl
          exact ⟨c :: (w ++ [c]) ++ g, v, by simp, .append (.quoted hquote hw) hg, hv⟩
        · rw [skipFrom_of_not_mem hmem] at h
          contradiction
      · -- the group that opens here is closed before the one around it
        rw [skipFrom_open] at h
        obtain ⟨g, u, rfl, hg, hu⟩ := ih s.length (by omega) h rfl
        have hshorter : u.length < n := by
          simp only [List.length_append, List.length_cons] at hlength
          omega
        rw [skipFrom_close] at hu
        obtain ⟨g', v, rfl, hg', hv⟩ := ih u.length hshorter hu rfl
        exact ⟨'(' :: (g ++ [')']) ++ g', v, by simp, .append (.group hg) hg', hv⟩
      · exact ⟨[], s, rfl, .nil, h⟩
      · rw [skipFrom_char hquote hopen hclose] at h
        obtain ⟨g, u, rfl, hg, hu⟩ := ih s.length (by omega) h rfl
        exact ⟨c :: g, u, rfl, .append (.char hquote hopen hclose) hg, hu⟩

/-- A group is skipped exactly if it is closed, up to the parenthesis that closes it. -/
theorem skipGroup_eq_some :
    skipGroup ('(' :: s) = some rest ↔ ∃ g, s = g ++ ')' :: rest ∧ Nested g := by
  constructor
  · intro h
    rw [skipGroup, skipFrom_open] at h
    obtain ⟨g, u, hs, hg, hu⟩ := exists_of_skipFrom h
    obtain rfl : u = rest := Option.some.inj hu
    exact ⟨g, hs, hg⟩
  · rintro ⟨g, rfl, hg⟩
    exact hg.skipGroup

/-! ### Groups that are closed -/

/-- The group that is open before a text is closed in it. -/
def ClosesGroup (s : List Char) : Prop := ∃ g u, s = g ++ ')' :: u ∧ Nested g

theorem ClosesGroup.append (h : ClosesGroup s) (t : List Char) : ClosesGroup (s ++ t) := by
  obtain ⟨g, u, rfl, hg⟩ := h
  exact ⟨g, u ++ t, by simp, hg⟩

theorem ClosesGroup.behind (ht : ClosesGroup t) (hs : Nested s) : ClosesGroup (s ++ t) := by
  obtain ⟨g, u, rfl, hg⟩ := ht
  exact ⟨s ++ g, u, by simp, hs.append hg⟩

/-- A place in a text of two parts lies in the first or in the second. -/
private theorem append_eq_append_cons {a b : List Char} (h : a ++ b = x ++ c :: t) :
    (∃ v, a = x ++ c :: v ∧ t = v ++ b) ∨ ∃ v, x = a ++ v ∧ b = v ++ c :: t := by
  rcases List.append_eq_append_iff.1 h with ⟨v, rfl, hb⟩ | ⟨v, rfl, hv⟩
  · exact .inr ⟨v, rfl, hb⟩
  · cases v with
    | nil => exact .inr ⟨[], by simp, hv.symm⟩
    | cons d v =>
      obtain ⟨rfl, rfl⟩ := List.cons.inj hv
      exact .inl ⟨v, rfl, rfl⟩

/-- No parenthesis opens inside quotes. -/
theorem not_opens_quoted (hm : isQuote m = true) (hfree : m ∉ s) (hparts : m :: s = x ++ '(' :: t) :
    quoteAfter none x ≠ none := by
  cases x with
  | nil =>
    obtain ⟨rfl, -⟩ := List.cons.inj hparts
    exact absurd hm (by decide)
  | cons d x =>
    obtain ⟨rfl, rfl⟩ := List.cons.inj hparts
    rw [quoteAfter_cons, nextQuote_open hm,
      quoteAfter_of_not_mem fun hx => hfree (List.mem_append_left _ hx)]
    exact Option.some_ne_none m

/-- A group that opens in nested text is closed in it. -/
theorem Nested.closes (hs : Nested s) (hparts : s = x ++ '(' :: t)
    (hx : Sql.quoteAfter none x = none) : ClosesGroup t := by
  induction hs generalizing x t with
  | nil => simp at hparts
  | @char c quote opens closes =>
    cases x with
    | nil => exact absurd (List.cons.inj hparts).1 opens
    | cons d x => simp at hparts
  | @quoted m n isMark free =>
    rw [← List.cons_append] at hparts
    rcases append_eq_append_cons hparts with ⟨v, hfront, -⟩ | ⟨v, -, hmark⟩
    · exact absurd hx (not_opens_quoted isMark free hfront)
    · obtain rfl : '(' = m := List.mem_singleton.1 (hmark ▸ by simp)
      exact absurd isMark (by decide)
  | @group g inner ih =>
    cases x with
    | nil =>
      obtain ⟨-, rfl⟩ := List.cons.inj hparts
      exact ⟨g, [], rfl, inner⟩
    | cons d x =>
      obtain ⟨rfl, hrest⟩ := List.cons.inj hparts
      rcases append_eq_append_cons hrest with ⟨v, hfront, rfl⟩ | ⟨v, -, hend⟩
      · exact (ih hfront hx).append _
      · exact absurd (List.mem_singleton.1 (hend ▸ by simp : '(' ∈ [')'])) (by decide)
  | append left right ihl ihr =>
    rcases append_eq_append_cons hparts with ⟨v, hfront, rfl⟩ | ⟨v, rfl, hbehind⟩
    · exact (ihl hfront hx).append _
    · rw [quoteAfter_append, left.quoteAfter] at hx
      exact ihr hbehind hx

namespace NestedUpTo

/-- A group that opens outside the quotes that a text ends in is closed in it. -/
theorem closes (hs : NestedUpTo quote s) (hparts : s = x ++ '(' :: t) (hx : quoteAfter none x = none) :
    ClosesGroup t := by
  cases quote with
  | none => exact Nested.closes hs hparts hx
  | some m =>
    obtain ⟨a, u, rfl, ha, hm, hu⟩ := hs
    rcases append_eq_append_cons hparts with ⟨v, hfront, rfl⟩ | ⟨v, rfl, hbehind⟩
    · exact (ha.closes hfront hx).append _
    · rw [quoteAfter_append, ha.quoteAfter] at hx
      exact absurd hx (not_opens_quoted hm hu hbehind)

theorem skipFrom (hs : NestedUpTo quote s) : Sql.skipFrom (depth + 1) none s = none := by
  cases quote with
  | none =>
    have hend : Sql.skipFrom (depth + 1) none (s ++ []) = Sql.skipFrom (depth + 1) none [] :=
      Nested.skipFrom hs
    rwa [List.append_nil] at hend
  | some m =>
    obtain ⟨a, u, rfl, ha, hm, hu⟩ := hs
    rw [ha.skipFrom, skipFrom_quote hm, skipFrom_of_not_mem hu]

/-- It closes no group that is open before it. -/
theorem not_closesGroup (hs : NestedUpTo quote s) : ¬ ClosesGroup s := by
  rintro ⟨g, u, rfl, hg⟩
  have hskip : Sql.skipFrom (0 + 1) none (g ++ ')' :: u) = none := hs.skipFrom
  rw [hg.skipFrom] at hskip
  exact Option.some_ne_none u hskip

theorem behind (ht : NestedUpTo quote t) (hs : Nested s) : NestedUpTo quote (s ++ t) := by
  cases quote with
  | none => exact hs.append ht
  | some m =>
    obtain ⟨a, u, rfl, ha, hm, hu⟩ := ht
    exact ⟨s ++ a, u, by simp, hs.append ha, hm, hu⟩

/-- A text that closes no group open before it, and all that it opens, is nested but for the quotes it
ends in. -/
theorem of_closesGroup (hs : ¬ ClosesGroup s)
    (hgroups : ∀ x t, s = x ++ '(' :: t → quoteAfter none x = none → ClosesGroup t) :
    NestedUpTo (quoteAfter none s) s := by
  generalize hlength : s.length = n
  induction n using Nat.strong_induction_on generalizing s with
  | _ n ih =>
    -- behind a nested piece at its start the text is of the same kind
    have hpiece (a b : List Char) (hparts : s = a ++ b) (hne : a ≠ []) (ha : Nested a) :
        NestedUpTo (quoteAfter none s) s := by
      subst hparts
      have hshorter : b.length < n := by
        have := List.length_pos_iff.2 hne
        rw [List.length_append] at hlength
        omega
      have hb : NestedUpTo (quoteAfter none b) b := by
        refine ih b.length hshorter (fun hb => hs (hb.behind ha)) (fun x t hparts hx => ?_) rfl
        refine hgroups (a ++ x) t (by simp [hparts]) ?_
        rw [quoteAfter_append, ha.quoteAfter, hx]
      rw [quoteAfter_append, ha.quoteAfter]
      exact hb.behind ha
    cases s with
    | nil => exact .nil
    | cons c s =>
      rcases scanned_cases c with hquote | rfl | rfl | ⟨hquote, hopen, hclose⟩
      · by_cases hmem : c ∈ s
        · obtain ⟨w, u, rfl, hw⟩ := List.eq_append_cons_of_mem hmem
          exact hpiece (c :: (w ++ [c])) u (by simp) (by simp) (.quoted hquote hw)
        · rw [quoteAfter_cons, nextQuote_open hquote, quoteAfter_of_not_mem hmem]
          exact ⟨[], s, rfl, .nil, hquote, hmem⟩
      · obtain ⟨g, u, rfl, hg⟩ := hgroups [] s rfl rfl
        exact hpiece ('(' :: (g ++ [')'])) u (by simp) (by simp) (.group hg)
      · exact absurd ⟨[], s, rfl, .nil⟩ hs
      · exact hpiece [c] s rfl (by simp) (.char hquote hopen hclose)

end NestedUpTo

/-! ### Places in a text -/

/-- A group opens at a place of a text, outside quotes. -/
structure OpensAt (t : List Char) (o : Nat) : Prop where
  mark : t[o]? = some '('
  outside : QuotesClosed (t.take o)

/-- The group that opens at one place of a text is closed at another: what is between them is nested. -/
structure ClosedAt (t : List Char) (o q : Nat) : Prop where
  behind : o < q
  mark : t[q]? = some ')'
  inner : Nested ((t.take q).drop (o + 1))

/-- The last place before `p` at which a group opens that is not closed before `p`. -/
structure LastOpenAt (t : List Char) (p o : Nat) : Prop where
  opens : OpensAt t o
  before : o < p
  unclosed : ∀ q < p, ¬ ClosedAt t o q
  last : ∀ o', o < o' → o' < p → OpensAt t o' → ∃ q < p, ClosedAt t o' q

theorem getElem?_eq_some_iff_append : t[o]? = some c ↔ ∃ x y, t = x ++ c :: y ∧ x.length = o := by
  constructor
  · intro h
    obtain ⟨hlt, rfl⟩ := List.getElem?_eq_some_iff.1 h
    refine ⟨t.take o, t.drop (o + 1), ?_, List.length_take_of_le hlt.le⟩
    rw [List.getElem_cons_drop, List.take_append_drop]
  · rintro ⟨x, y, rfl, rfl⟩
    simp

theorem getElem?_take_eq_some_iff : (t.take p)[o]? = some c ↔ o < p ∧ t[o]? = some c := by
  rw [List.getElem?_take, ite_eq_iff]
  simp

theorem opensAt_iff : OpensAt t o ↔
    ∃ x y, t = x ++ '(' :: y ∧ x.length = o ∧ quoteAfter none x = none := by
  constructor
  · rintro ⟨hmark, houtside⟩
    obtain ⟨x, y, rfl, rfl⟩ := getElem?_eq_some_iff_append.1 hmark
    rw [List.take_left] at houtside
    exact ⟨x, y, rfl, rfl, houtside.quoteAfter⟩
  · rintro ⟨x, y, rfl, rfl, hx⟩
    refine ⟨by simp, ?_⟩
    rw [List.take_left]
    exact quoteAfter_eq_none.1 hx

theorem closedAt_iff : ClosedAt t o q ↔
    ∃ g u, t.drop (o + 1) = g ++ ')' :: u ∧ q = o + 1 + g.length ∧ Nested g := by
  constructor
  · rintro ⟨hbehind, hmark, hinner⟩
    obtain ⟨k, rfl⟩ := Nat.exists_eq_add_of_le hbehind
    rw [← List.getElem?_drop] at hmark
    obtain ⟨g, u, hparts, rfl⟩ := getElem?_eq_some_iff_append.1 hmark
    rw [List.drop_take, Nat.add_sub_cancel_left, hparts, List.take_left] at hinner
    exact ⟨g, u, hparts, rfl, hinner⟩
  · rintro ⟨g, u, hparts, rfl, hg⟩
    refine ⟨by omega, ?_, ?_⟩
    · rw [← List.getElem?_drop, hparts]
      simp
    · rwa [List.drop_take, Nat.add_sub_cancel_left, hparts, List.take_left]

theorem closesGroup_drop_iff : ClosesGroup (t.drop (o + 1)) ↔ ∃ q, ClosedAt t o q := by
  constructor
  · rintro ⟨g, u, hparts, hg⟩
    exact ⟨_, closedAt_iff.2 ⟨g, u, hparts, rfl, hg⟩⟩
  · rintro ⟨q, h⟩
    obtain ⟨g, u, hparts, -, hg⟩ := closedAt_iff.1 h
    exact ⟨g, u, hparts, hg⟩

theorem OpensAt.drop_eq (h : OpensAt t o) : t.drop o = '(' :: t.drop (o + 1) := by
  obtain ⟨x, y, rfl, rfl, -⟩ := opensAt_iff.1 h
  simp

theorem opensAt_take_iff : OpensAt (t.take p) o ↔ o < p ∧ OpensAt t o := by
  constructor
  · rintro ⟨hmark, houtside⟩
    obtain ⟨hlt, hmark⟩ := getElem?_take_eq_some_iff.1 hmark
    rw [List.take_take, Nat.min_eq_left hlt.le] at houtside
    exact ⟨hlt, hmark, houtside⟩
  · rintro ⟨hlt, hmark, houtside⟩
    refine ⟨getElem?_take_eq_some_iff.2 ⟨hlt, hmark⟩, ?_⟩
    rwa [List.take_take, Nat.min_eq_left hlt.le]

theorem closedAt_take_iff : ClosedAt (t.take p) o q ↔ q < p ∧ ClosedAt t o q := by
  constructor
  · rintro ⟨hbehind, hmark, hinner⟩
    obtain ⟨hlt, hmark⟩ := getElem?_take_eq_some_iff.1 hmark
    rw [List.take_take, Nat.min_eq_left hlt.le] at hinner
    exact ⟨hlt, hbehind, hmark, hinner⟩
  · rintro ⟨hlt, hbehind, hmark, hinner⟩
    refine ⟨hbehind, getElem?_take_eq_some_iff.2 ⟨hlt, hmark⟩, ?_⟩
    rwa [List.take_take, Nat.min_eq_left hlt.le]

/-- Inside a group places are outside quotes exactly if they are so in what stands in the group. -/
theorem OpensAt.opensAt_iff_drop (h : OpensAt t o) :
    OpensAt t (o + 1 + p) ↔ OpensAt (t.drop (o + 1)) p := by
  obtain ⟨x, y, rfl, rfl, hx⟩ := opensAt_iff.1 h
  have hdrop : (x ++ '(' :: y).drop (x.length + 1) = y := by simp
  have htake : (x ++ '(' :: y).take (x.length + 1 + p) = x ++ '(' :: y.take p := by
    rw [Nat.add_assoc, List.take_length_add_append, Nat.add_comm, List.take_succ_cons]
  have hclosed : QuotesClosed (x ++ '(' :: y.take p) ↔ QuotesClosed (y.take p) := by
    rw [← quoteAfter_eq_none, ← quoteAfter_eq_none, quoteAfter_opened hx]
  constructor
  · rintro ⟨hmark, houtside⟩
    rw [← List.getElem?_drop, hdrop] at hmark
    rw [htake, hclosed] at houtside
    rw [hdrop]
    exact ⟨hmark, houtside⟩
  · rw [hdrop]
    rintro ⟨hmark, houtside⟩
    refine ⟨by rwa [← List.getElem?_drop, hdrop], ?_⟩
    rwa [htake, hclosed]

theorem NestedUpTo.iff_opensAt : NestedUpTo (quoteAfter none s) s ↔
    ¬ ClosesGroup s ∧ ∀ o, OpensAt s o → ClosesGroup (s.drop (o + 1)) := by
  constructor
  · intro h
    refine ⟨h.not_closesGroup, fun o ho => ?_⟩
    obtain ⟨x, y, rfl, rfl, hx⟩ := opensAt_iff.1 ho
    simpa using h.closes rfl hx
  · rintro ⟨hs, hgroups⟩
    refine .of_closesGroup hs fun x t hparts hx => ?_
    have ht := hgroups x.length (opensAt_iff.2 ⟨x, t, hparts, rfl, hx⟩)
    simpa [hparts] using ht

/-- Behind the last open parenthesis the text is nested, but for quotes. -/
theorem lastOpenAt_iff : LastOpenAt t p o ↔ OpensAt (t.take p) o ∧
    NestedUpTo (quoteAfter none ((t.take p).drop (o + 1))) ((t.take p).drop (o + 1)) := by
  rw [NestedUpTo.iff_opensAt]
  constructor
  · intro h
    have hopens : OpensAt (t.take p) o := opensAt_take_iff.2 ⟨h.before, h.opens⟩
    refine ⟨hopens, ?_, fun k hk => ?_⟩
    · intro hcloses
      obtain ⟨q, hq⟩ := closesGroup_drop_iff.1 hcloses
      obtain ⟨hlt, hclosed⟩ := closedAt_take_iff.1 hq
      exact h.unclosed q hlt hclosed
    · obtain ⟨hlt, hopensAt⟩ := opensAt_take_iff.1 (hopens.opensAt_iff_drop.2 hk)
      obtain ⟨q, hq, hclosed⟩ := h.last _ (by omega) hlt hopensAt
      rw [List.drop_drop, ← Nat.add_assoc, closesGroup_drop_iff]
      exact ⟨q, closedAt_take_iff.2 ⟨hq, hclosed⟩⟩
  · rintro ⟨hopens, hunclosed, hgroups⟩
    obtain ⟨hbefore, hopensAt⟩ := opensAt_take_iff.1 hopens
    refine ⟨hopensAt, hbefore, fun q hq hclosed => ?_, fun o' ho' hlt hopens' => ?_⟩
    · exact hunclosed (closesGroup_drop_iff.2 ⟨q, closedAt_take_iff.2 ⟨hq, hclosed⟩⟩)
    · obtain ⟨k, rfl⟩ := Nat.exists_eq_add_of_le (Nat.succ_le_of_lt ho')
      have hk := hgroups k (hopens.opensAt_iff_drop.1 (opensAt_take_iff.2 ⟨hlt, hopens'⟩))
      rw [List.drop_drop, ← Nat.add_assoc, closesGroup_drop_iff] at hk
      obtain ⟨q, hq⟩ := hk
      obtain ⟨hqp, hclosed⟩ := closedAt_take_iff.1 hq
      exact ⟨q, hqp, hclosed⟩

theorem innermostOpen_take : innermostOpen (t.take p) = some y ↔
    ∃ o, LastOpenAt t p o ∧ y = (t.take o).reverse := by
  have hbefore {o : Nat} (h : OpensAt (t.take p) o) : (t.take p).take o = t.take o := by
    rw [List.take_take, Nat.min_eq_left (opensAt_take_iff.1 h).1.le]
  rw [innermostOpen_iff]
  constructor
  · rintro ⟨x, u, hparts, rfl, hx, hu⟩
    have hopens : OpensAt (t.take p) x.length := opensAt_iff.2 ⟨x, u, hparts, rfl, hx⟩
    refine ⟨x.length, lastOpenAt_iff.2 ⟨hopens, ?_⟩, ?_⟩
    · simpa [hparts] using hu
    · rw [← hbefore hopens, hparts, List.take_left]
  · rintro ⟨o, h, rfl⟩
    obtain ⟨hopens, hnested⟩ := lastOpenAt_iff.1 h
    obtain ⟨x, u, hparts, rfl, hx⟩ := opensAt_iff.1 hopens
    refine ⟨x, u, hparts, ?_, hx, ?_⟩
    · rw [← hbefore hopens, hparts, List.take_left]
    · simpa [hparts] using hnested

theorem skipGroup_drop (h : OpensAt t o) : skipGroup (t.drop o) = some rest ↔
    ∃ q, ClosedAt t o q ∧ rest = t.drop (q + 1) := by
  rw [h.drop_eq, skipGroup_eq_some]
  constructor
  · rintro ⟨g, hparts, hg⟩
    refine ⟨_, closedAt_iff.2 ⟨g, rest, hparts, rfl, hg⟩, ?_⟩
    rw [Nat.add_assoc, ← List.drop_drop, hparts]
    simp
  · rintro ⟨q, hclosed, rfl⟩
    obtain ⟨g, u, hparts, rfl, hg⟩ := closedAt_iff.1 hclosed
    refine ⟨g, ?_, hg⟩
    rw [hparts, Nat.add_assoc, ← List.drop_drop, hparts]
    simp

/-- Before every place of every text the scanner with a stack finds the last group that opens outside
quotes and is not closed before that place. What the scanner that counts leaves behind this group begins
behind the place. It skips every group that opens outside quotes exactly if the group is closed, and up to
the parenthesis that closes it. -/
theorem parentheses_agree (t : List Char) :
    (∀ p y, innermostOpen (t.take p) = some y ↔ ∃ o, LastOpenAt t p o ∧ y = (t.take o).reverse) ∧
    (∀ p o, LastOpenAt t p o → ∀ rest, skipGroup (t.drop o) = some rest →
      ∃ r, p < r ∧ r ≤ t.length ∧ rest = t.drop r) ∧
    ∀ o, OpensAt t o → ∀ rest, skipGroup (t.drop o) = some rest ↔
      ∃ q, ClosedAt t o q ∧ rest = t.drop (q + 1) := by
  refine ⟨fun p y => innermostOpen_take, ?_, fun o h rest => skipGroup_drop h⟩
  intro p o h rest hskip
  obtain ⟨q, hclosed, rfl⟩ := (skipGroup_drop h.opens).1 hskip
  have hbehind : ¬ q < p := fun hlt => h.unclosed q hlt hclosed
  have hlength : q < t.length := (List.getElem?_eq_some_iff.1 hclosed.mark).1
  exact ⟨q + 1, by omega, hlength, rfl⟩

/-- `) f('(' (g) h) "(`. -/
def strayText : List Char := ") f('(' (g) h) \"(".toList

/-- Behind the inner group the outer one is the last that is open. The stray parentheses in front of it
and in quotes are no part of it, and at the end no group is open. -/
theorem parentheses_agree_stray : LastOpenAt strayText 12 3 ∧ ClosedAt strayText 3 13 ∧
    ∀ o, ¬ LastOpenAt strayText 17 o := by
  obtain ⟨hinnermost, -, hskip⟩ := parentheses_agree strayText
  have hlength (n : Nat) : (strayText.take n).length = min n 17 := List.length_take
  obtain ⟨o, hlast, ho⟩ := (hinnermost 12 (strayText.take 3).reverse).1 (by decide)
  obtain rfl : 3 = o := by
    have heq := congrArg List.length ho
    rw [List.length_reverse, List.length_reverse, hlength, hlength] at heq
    omega
  have hrest : skipGroup (strayText.drop 3) = some (strayText.drop 14) := by decide
  obtain ⟨q, hclosed, hq⟩ := (hskip 3 hlast.opens _).1 hrest
  obtain rfl : 13 = q := by
    have heq := congrArg List.length hq
    rw [List.length_drop, List.length_drop] at heq
    have : strayText.length = 17 := rfl
    omega
  refine ⟨hlast, hclosed, fun o h => ?_⟩
  have hnone : innermostOpen (strayText.take 17) = none := by decide
  exact absurd ((hinnermost 17 _).2 ⟨o, h, rfl⟩) (by simp [hnone])

end Querent.Sql
