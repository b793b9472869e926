import Querent.Proofs.Sql.Item
import Querent.Proofs.Sql.Leads
import Querent.Proofs.Sql.Phase
import Querent.Proofs.Sql.Scan
import Querent.Proofs.Text.Lower

/-! Statements in small letters. Whatever is read off a statement is read off it in small letters
too, and is the same in small letters. -/
namespace Querent

open Text

/-- A text with its letters A to Z in small. -/
def lowered (s : String) : String := .ofList (lower s.toList)

theorem lowered_ofList (cs : List Char) : lowered (.ofList cs) = .ofList (lower cs) := by
  simp [lowered]

theorem sameText_iff {a b : String} : sameText a b = true ↔ lowered a = lowered b := by
  unfold sameText
  rw [sameLetters_iff]
  exact ⟨congrArg String.ofList, String.ofList_injective⟩

@[simp] theorem sameText_lowered_left (a b : String) : sameText (lowered a) b = sameText a b := by
  simp [sameText, lowered]

@[simp] theorem sameText_lowered_right (a b : String) : sameText a (lowered b) = sameText a b := by
  simp [sameText, lowered]

namespace Sql

/-- A table reference in small letters. -/
def TableRef.lowered (r : TableRef) : TableRef where
  schema := r.schema.map Querent.lowered
  table := Querent.lowered r.table
  calledAs := Querent.lowered r.calledAs

def Join.lowered (j : Join) : Join where
  target := Querent.lowered j.target
  condition := j.condition.map Querent.lowered

def Equality.lowered (e : Equality) : Equality where
  left := e.left.map Querent.lowered
  right := e.right.map Querent.lowered

variable {α : Type} {opens : Char → Bool} {quote : Option Char} {s t word before : List Char}
  {depth : Nat} {c : Char}

/-! ### Quotes and parentheses -/

@[simp] theorem isQuote_toLower (c : Char) : isQuote c.toLower = isQuote c := by
  unfold isQuote
  rw [toLower_beq (by decide), toLower_beq (by decide), toLower_beq (by decide)]

theorem isAlpha_of_isQuote (h : isQuote c = true) : c.isAlpha = false := by
  simp only [isQuote, Bool.or_eq_true, beq_iff_eq] at h
  rcases h with (rfl | rfl) | rfl <;> decide

theorem nextQuote_toLower (hquote : ∀ m ∈ quote, isQuote m = true) :
    nextQuote quote c.toLower = nextQuote quote c := by
  cases quote with
  | none =>
    unfold nextQuote
    rw [isQuote_toLower]
    cases hc : isQuote c with
    | false => rfl
    | true =>
      rw [toLower_of_isAlpha (isAlpha_of_isQuote hc)]
  | some m =>
    have hm : m.isAlpha = false := isAlpha_of_isQuote (hquote m rfl)
    simp only [nextQuote, toLower_beq hm]

theorem skipFrom_lower (hquote : ∀ m ∈ quote, isQuote m = true) :
    skipFrom depth quote (lower s) = (skipFrom depth quote s).map lower := by
  induction s generalizing depth quote with
  | nil => rfl
  | cons c s ih =>
    have hnone : ∀ m ∈ (none : Option Char), isQuote m = true := by simp
    simp only [lower_cons, skipFrom, toLower_beq (show '('.isAlpha = false by decide),
      toLower_beq (show ')'.isAlpha = false by decide), nextQuote_toLower hquote, ih hnone,
      ih (isQuote_of_nextQuote hquote)]
    split
    · rfl
    · split
      · split <;> rfl
      · rfl

theorem skipGroup_lower (s : List Char) : skipGroup (lower s) = (skipGroup s).map lower :=
  skipFrom_lower (by simp)

theorem openFrom_lower {opens : List (List Char)} (hquote : ∀ m ∈ quote, isQuote m = true) :
    openFrom (opens.map lower) quote (lower before) (lower s) =
      (openFrom opens quote before s).map lower := by
  induction s generalizing opens quote before with
  | nil => rfl
  | cons c s ih =>
    simp only [lower_cons, openFrom, toLower_beq (show '('.isAlpha = false by decide),
      toLower_beq (show ')'.isAlpha = false by decide), nextQuote_toLower hquote]
    rw [← ih (isQuote_of_nextQuote hquote)]
    split
    · rfl
    · split
      · rfl
      · split
        · simp
        · rfl

theorem innermostOpen_lower (s : List Char) :
    innermostOpen (lower s) = (innermostOpen s).map lower := by
  have hopen : openFrom (List.map lower []) none (lower []) (lower s) =
      (openFrom [] none [] s).map lower := openFrom_lower (by simp)
  unfold innermostOpen
  rw [← List.head?_map, ← hopen]
  rfl

/-! ### Names -/

theorem opensName_toLower (c : Char) : opensName c.toLower = opensName c := by
  unfold opensName
  rw [isAlpha_toLower, toLower_beq (by decide)]

theorem opensAlias_toLower (c : Char) : opensAlias c.toLower = opensAlias c := by
  unfold opensAlias
  rw [opensName_toLower, toLower_beq (by decide), toLower_beq (by decide)]

theorem inName_toLower (c : Char) : inName c.toLower = inName c := by
  unfold inName
  rw [isWordChar_toLower, toLower_beq (by decide)]

theorem isNameQuote_toLower (c : Char) : isNameQuote c.toLower = isNameQuote c := by
  unfold isNameQuote
  rw [toLower_beq (by decide), toLower_beq (by decide)]

theorem isAlpha_of_isNameQuote (h : isNameQuote c = true) : c.isAlpha = false := by
  simp only [isNameQuote, Bool.or_eq_true, beq_iff_eq] at h
  rcases h with rfl | rfl <;> decide

theorem readName_lower (hopens : ∀ c, opens c.toLower = opens c) (s : List Char) :
    readName opens (lower s) = (readName opens s).map (Prod.map lower lower) := by
  cases s with
  | nil => rfl
  | cons c s =>
    simp only [lower_cons, readName, hopens, isNameQuote_toLower]
    split
    · simp [takeWhile_lower inName_toLower, dropWhile_lower inName_toLower]
    · split
      next hc =>
        have hmark : c.isAlpha = false := isAlpha_of_isNameQuote hc
        have hkeep : ∀ d : Char, (d.toLower != c) = (d != c) := by
          intro d
          unfold bne
          rw [toLower_beq hmark]
        rw [toLower_of_isAlpha hmark, takeWhile_lower hkeep, dropWhile_lower hkeep]
        cases hrest : s.dropWhile (· != c) with
        | nil => rfl
        | cons q rest =>
          simp only [lower_cons, isEmpty_lower]
          split <;> simp [toLower_of_isAlpha hmark]
      next => rfl

theorem afterDot_lower (s : List Char) : afterDot (lower s) = (afterDot s).map lower := by
  unfold afterDot
  rw [trimStart_lower]
  cases trimStart s with
  | nil => rfl
  | cons c rest =>
    by_cases hc : c = '.'
    · subst hc
      exact congrArg some (trimStart_lower rest)
    · have hc' : c.toLower ≠ '.' := mt (toLower_eq_iff (by decide)).1 hc
      simp [hc, hc']

theorem unquote_lower (name : List Char) : unquote (lower name) = lower (unquote name) := by
  unfold unquote
  rw [trim_lower, dropWhile_lower isNameQuote_toLower, ← lower_reverse,
    dropWhile_lower isNameQuote_toLower, lower_reverse]

theorem isOneOf_lower (words : List String) (word : List Char) :
    isOneOf words (lower word) = isOneOf words word := by
  simp only [isOneOf, sameLetters_lower_right]

theorem isReserved_lower (word : List Char) : isReserved (lower word) = isReserved word :=
  isOneOf_lower reserved word

/-! ### Tables -/

theorem trailingWord_lower (s : List Char) : trailingWord (lower s) = lower (trailingWord s) := by
  refine takeWhile_lower (fun c => ?_) s
  rw [isLetterOrNumber_toLower, toLower_beq (by decide)]

theorem opensClause_lower (before : List Char) :
    opensClause (lower before) = opensClause before := by
  unfold opensClause
  simp only [trimStart_lower, trailingWord_lower, ← lower_reverse, sameLetters_lower_left,
    innermostOpen_lower]
  split
  · rfl
  · cases innermostOpen (trimStart before).reverse with
    | none => rfl
    | some callee =>
      simp only [Option.map_some, trimStart_lower, trailingWord_lower, ← lower_reverse,
        isOneOf_lower]

theorem afterModifier_lower (s : List Char) :
    afterModifier (lower s) = (afterModifier s).map lower := by
  simp only [afterModifier, takeWhile_lower isWordChar_toLower, spells_lower,
    dropWhile_lower isWordChar_toLower, trimStart_lower]
  split <;> rfl

theorem skipModifiers_of_some (h : afterModifier s = some t) :
    skipModifiers s = skipModifiers t := by
  rw [skipModifiers]
  split
  · rename_i heq
    obtain rfl := Option.some.inj (h.symm.trans heq)
    rfl
  · rename_i heq
    exact absurd (h.symm.trans heq) (by simp)

theorem skipModifiers_of_none (h : afterModifier s = none) : skipModifiers s = s := by
  rw [skipModifiers]
  split
  · rename_i heq
    exact absurd (h.symm.trans heq) (by simp)
  · rfl

theorem skipModifiers_lower (s : List Char) :
    skipModifiers (lower s) = lower (skipModifiers s) := by
  induction s using skipModifiers.induct with
  | case1 s rest h ih =>
    have hlower : afterModifier (lower s) = some (lower rest) := by rw [afterModifier_lower, h]; rfl
    rw [skipModifiers_of_some h, skipModifiers_of_some hlower, ih]
  | case2 s h =>
    have hlower : afterModifier (lower s) = none := by rw [afterModifier_lower, h]; rfl
    rw [skipModifiers_of_none h, skipModifiers_of_none hlower]

theorem afterAs_lower (s : List Char) : afterAs (lower s) = (afterAs s).map lower := by
  match s with
  | [] | [_] | [_, _] => rfl
  | a :: b :: c :: rest =>
    have hspells : spells "AS" [a.toLower, b.toLower] = spells "AS" [a, b] :=
      spells_lower "AS" [a, b]
    simp only [lower_cons, afterAs, hspells, isBlank_toLower, trimStart_lower]
    split <;> rfl

theorem readAliasName_lower (s : List Char) :
    readAliasName (lower s) = (readAliasName s).map (Prod.map lower lower) := by
  have hnamed : (afterAs (lower s)).bind (readName opensAlias) =
      ((afterAs s).bind (readName opensAlias)).map (Prod.map lower lower) := by
    rw [afterAs_lower]
    cases afterAs s with
    | none => rfl
    | some rest => exact readName_lower opensAlias_toLower rest
  unfold readAliasName
  rw [hnamed, readName_lower opensAlias_toLower]
  cases (afterAs s).bind (readName opensAlias) <;> rfl

theorem readAlias_lower (s : List Char) :
    readAlias (lower s) = (readAlias s).map (Prod.map lower lower) := by
  unfold readAlias
  rw [trimStart_lower, readAliasName_lower]
  cases readAliasName (trimStart s) with
  | none => rfl
  | some found =>
    obtain ⟨name, rest⟩ := found
    simp only [Option.map_some, Prod.map_apply, unquote_lower, isReserved_lower]
    split
    · rfl
    · cases rest with
      | nil => rfl
      | cons c rest =>
        by_cases hc : c = '('
        · subst hc
          have hgroup : skipGroup ('(' :: lower rest) = (skipGroup ('(' :: rest)).map lower :=
            skipGroup_lower ('(' :: rest)
          have hopen : '('.toLower = '(' := by decide
          simp only [lower_cons, hopen, hgroup, Option.map_some, Prod.map_apply]
          cases skipGroup ('(' :: rest) <;> simp [hopen]
        · have hc' : c.toLower ≠ '(' := mt (toLower_eq_iff (by decide)).1 hc
          simp [hc, hc']

theorem skipArguments_lower (s : List Char) :
    skipArguments (lower s) = lower (skipArguments s) := by
  unfold skipArguments
  rw [trimStart_lower]
  cases trimStart s with
  | nil => rfl
  | cons c rest =>
    by_cases hc : c = '('
    · subst hc
      have hgroup : skipGroup ('(' :: lower rest) = (skipGroup ('(' :: rest)).map lower :=
        skipGroup_lower ('(' :: rest)
      have hopen : '('.toLower = '(' := by decide
      simp only [lower_cons, hopen, hgroup]
      cases skipGroup ('(' :: rest) <;> rfl
    · have hc' : c.toLower ≠ '(' := mt (toLower_eq_iff (by decide)).1 hc
      simp [hc, hc']

/-- What a reader of tables reads, in small letters. -/
def loweredRead (found : TableRef × List Char) : TableRef × List Char :=
  (found.1.lowered, lower found.2)

theorem aliased_lower (schema : Option String) (table s : List Char) :
    aliased (schema.map lowered) (lower table) (lower s) =
      loweredRead (aliased schema table s) := by
  unfold aliased
  rw [readAlias_lower]
  cases readAlias s with
  | none => simp [loweredRead, TableRef.lowered, lowered_ofList]
  | some found => simp [loweredRead, TableRef.lowered, lowered_ofList]

/-- The schema that an engine assumes is written in small letters. -/
theorem defaultSchema_lower (d : Dialect) : d.defaultSchema.map lowered = d.defaultSchema := by
  cases d <;> decide

theorem readTable_lower (d : Dialect) (s : List Char) :
    readTable d (lower s) = (readTable d s).map loweredRead := by
  unfold readTable
  rw [readName_lower opensName_toLower]
  cases readName opensName s with
  | none => rfl
  | some found =>
    obtain ⟨first, rest⟩ := found
    have hsecond : (afterDot (lower rest)).bind (readName opensName) =
        ((afterDot rest).bind (readName opensName)).map (Prod.map lower lower) := by
      rw [afterDot_lower]
      cases afterDot rest with
      | none => rfl
      | some rest => exact readName_lower opensName_toLower rest
    simp only [Option.map_some, Prod.map_apply, hsecond]
    cases (afterDot rest).bind (readName opensName) with
    | none =>
      simp only [Option.map_none, unquote_lower, isReserved_lower, skipArguments_lower]
      split
      · rfl
      · have haliased := aliased_lower d.defaultSchema (unquote first) (skipArguments rest)
        rw [defaultSchema_lower] at haliased
        rw [haliased]
        rfl
    | some found =>
      obtain ⟨second, rest⟩ := found
      simp only [Option.map_some, Prod.map_apply, unquote_lower, skipArguments_lower,
        ← lowered_ofList]
      exact congrArg some (aliased_lower (some _) (unquote second) (skipArguments rest))

/-- What a reader of items reads, in small letters. -/
def loweredItem (found : Option TableRef × List Char) : Option TableRef × List Char :=
  (found.1.map TableRef.lowered, lower found.2)

theorem readItem_lower (d : Dialect) (s : List Char) :
    readItem d (lower s) = (readItem d s).map loweredItem := by
  have htable (t : List Char) : (readTable d (lower t)).map (fun found => (some found.1, found.2)) =
      ((readTable d t).map fun found => (some found.1, found.2)).map loweredItem := by
    rw [readTable_lower]
    cases readTable d t <;> rfl
  unfold readItem
  rw [skipModifiers_lower]
  cases skipModifiers s with
  | nil => exact htable []
  | cons c rest =>
    by_cases hc : c = '('
    · subst hc
      have hgroup : skipGroup ('(' :: lower rest) = (skipGroup ('(' :: rest)).map lower :=
        skipGroup_lower ('(' :: rest)
      have hopen : '('.toLower = '(' := by decide
      simp only [lower_cons, hopen, hgroup]
      cases skipGroup ('(' :: rest) with
      | none => rfl
      | some rest =>
        simp only [Option.map_some, readAlias_lower]
        cases readAlias rest <;> rfl
    · have hc' : c.toLower ≠ '(' := mt (toLower_eq_iff (by decide)).1 hc
      have hrest := htable (c :: rest)
      simp only [lower_cons] at hrest ⊢
      simpa [hc, hc'] using hrest

theorem nextFrom_lower (hquote : ∀ m ∈ quote, isQuote m = true) :
    nextFrom depth quote (lower word) (lower s) = (nextFrom depth quote word s).map lower := by
  induction s generalizing depth quote word with
  | nil => rfl
  | cons c s ih =>
    have hnone : ∀ m ∈ (none : Option Char), isQuote m = true := by simp
    have hword : isOneOf listEnds (lower word).reverse = isOneOf listEnds word.reverse := by
      rw [← lower_reverse, isOneOf_lower]
    have hinside : nextFrom depth none (lower (c :: word)) (lower s) =
        (nextFrom depth none (c :: word) s).map lower := ih hnone
    have hstart (depth : Nat) {quote : Option Char} (hquote : ∀ m ∈ quote, isQuote m = true) :
        nextFrom depth quote (lower []) (lower s) = (nextFrom depth quote [] s).map lower :=
      ih hquote
    simp only [lower_cons, nextFrom, isLetterOrNumber_toLower, isEmpty_lower, hword,
      toLower_beq (show '_'.isAlpha = false by decide),
      toLower_beq (show '$'.isAlpha = false by decide),
      toLower_beq (show '('.isAlpha = false by decide),
      toLower_beq (show ')'.isAlpha = false by decide),
      toLower_beq (show ','.isAlpha = false by decide), nextQuote_toLower hquote,
      nextQuote_toLower hnone]
    split
    · exact ih (isQuote_of_nextQuote hquote)
    split
    · exact hinside
    split
    · rfl
    split
    · exact hstart _ hnone
    split
    · cases depth with
      | zero => rfl
      | succ depth => exact hstart depth hnone
    split
    · exact congrArg some (trimStart_lower s)
    · exact hstart depth (isQuote_of_nextQuote hnone)

theorem nextItem_lower (s : List Char) : nextItem (lower s) = (nextItem s).map lower := by
  have hstart : nextFrom 0 none (lower []) (lower s) = (nextFrom 0 none [] s).map lower :=
    nextFrom_lower (by simp)
  exact hstart

theorem readItems_of_none {d : Dialect} {more : Bool} (h : readItem d s = none) :
    readItems d more s = [] := by
  rw [readItems]
  split
  · rfl
  · rename_i heq
    exact absurd (h.symm.trans heq) (by simp)

theorem readItems_lower (d : Dialect) (more : Bool) (s : List Char) :
    readItems d more (lower s) = (readItems d more s).map TableRef.lowered := by
  induction s using readItems.induct d generalizing more with
  | case1 s hitem =>
    have hread := readItem_lower d s
    rw [hitem] at hread
    rw [readItems_of_none hitem, readItems_of_none hread]
    rfl
  | case2 s ref rest hitem ih =>
    have hread := readItem_lower d s
    rw [hitem] at hread
    rw [readItems_of_readItem hitem, readItems_of_readItem hread, nextItem_lower]
    have hhere : (ref.map TableRef.lowered).toList = ref.toList.map TableRef.lowered := by
      cases ref <;> rfl
    rw [hhere, List.map_append]
    congr 1
    cases more with
    | false => rfl
    | true =>
      cases hnext : nextItem rest with
      | none => rfl
      | some next => exact ih next hnext true

theorem namesTables_lower (w : List Char) : namesTables (lower w) = namesTables w := by
  simp [namesTables]

theorem head?_isBlank_lower (s : List Char) :
    ((lower s).head?.map isBlank).getD false = (s.head?.map isBlank).getD false := by
  cases s <;> simp

theorem tablesFrom_lower (d : Dialect) (before s : List Char) :
    tablesFrom d (lower before) (lower s) = (tablesFrom d before s).map TableRef.lowered := by
  induction before, s using tablesFrom.induct d with
  | case1 before s hfound =>
    have hfind := findFrom_lower namesTables_lower before [] s
    have hnone : findFrom namesTables before [] s = none := hfound
    rw [hnone] at hfind
    rw [tablesFrom_of_none hnone, tablesFrom_of_none hfind]
    rfl
  | case2 before s found hfound ih =>
    have hfind := findFrom_lower namesTables_lower before [] s
    have hsome : findFrom namesTables before [] s = some found := hfound
    rw [hsome] at hfind
    rw [tablesFrom_of_some hsome, tablesFrom_of_some hfind, List.map_append]
    rw [lower_append, lower_reverse] at ih
    simp only [Found.lower, ih, head?_isBlank_lower, sameLetters_lower_left,
      opensClause_lower, trimStart_lower, readItems_lower]
    split <;> rfl

/-- The tables of a statement in small letters. -/
theorem tables_lower (d : Dialect) (s : List Char) :
    tables d (lower s) = (tables d s).map TableRef.lowered := tablesFrom_lower d [] s

/-! ### Joins -/

theorem upTo_lower {p : List Char → Bool} (hp : ∀ w, p (lower w) = p w) (s : List Char) :
    upTo p (lower s) = lower (upTo p s) := by
  unfold upTo
  rw [findWord_lower hp]
  cases findWord p s with
  | none => rfl
  | some found => simp [Found.lower]

theorem clauseText_lower (s : List Char) : clauseText (lower s) = lower (clauseText s) :=
  upTo_lower (fun w => by simp) s

theorem readJoin_lower (s : List Char) : readJoin (lower s) = (readJoin s).lowered := by
  unfold readJoin
  rw [findWord_lower (spells_lower "ON")]
  cases findWord (spells "ON") s with
  | none => simp [Join.lowered, clauseText_lower, lowered_ofList]
  | some on =>
    simp [Join.lowered, Found.lower, clauseText_lower, lowered_ofList, ← lower_reverse]

theorem joins_lower (s : List Char) : joins (lower s) = (joins s).map Join.lowered := by
  induction s using joins.induct with
  | case1 s hfound =>
    have hfind := findWord_lower (spells_lower "JOIN") s
    rw [hfound] at hfind
    rw [joins_of_none hfound, joins_of_none hfind]
    rfl
  | case2 s found hfound ih =>
    have hfind := findWord_lower (spells_lower "JOIN") s
    rw [hfound] at hfind
    rw [joins_of_some hfound, joins_of_some hfind, List.map_cons]
    simp only [Found.lower, upTo_lower (spells_lower "JOIN"), readJoin_lower, ih]

/-! ### Equalities -/

theorem readDotted_lower (more : Nat) (s : List Char) :
    readDotted more (lower s) = (readDotted more s).map (Prod.map lower lower) := by
  induction more generalizing s with
  | zero =>
    unfold readDotted
    rw [readName_lower opensName_toLower]
    cases readName opensName s <;> rfl
  | succ more ih =>
    unfold readDotted
    rw [readName_lower opensName_toLower]
    cases readName opensName s with
    | none => rfl
    | some found =>
      obtain ⟨name, rest⟩ := found
      have htail : (afterDot (lower rest)).bind (readDotted more) =
          ((afterDot rest).bind (readDotted more)).map (Prod.map lower lower) := by
        rw [afterDot_lower]
        cases afterDot rest with
        | none => rfl
        | some rest => exact ih rest
      simp only [Option.map_some, Prod.map_apply, htail]
      cases (afterDot rest).bind (readDotted more) with
      | none => rfl
      | some found =>
        have hdot : '.'.toLower = '.' := by decide
        simp [hdot]

theorem readEquality_lower (s : List Char) : readEquality (lower s) =
    (readEquality s).map (Prod.map lower (Prod.map lower lower)) := by
  unfold readEquality
  rw [readDotted_lower]
  cases readDotted 2 s with
  | none => rfl
  | some found =>
    obtain ⟨left, rest⟩ := found
    simp only [Option.map_some, Prod.map_apply, Option.bind_eq_bind, Option.bind_some,
      trimStart_lower]
    cases trimStart rest with
    | nil => rfl
    | cons c rest =>
      by_cases hc : c = '='
      · subst hc
        have hequals : '='.toLower = '=' := by decide
        simp only [lower_cons, hequals, trimStart_lower, readDotted_lower]
        cases readDotted 2 (trimStart rest) <;> rfl
      · have hc' : c.toLower ≠ '=' := mt (toLower_eq_iff (by decide)).1 hc
        simp [hc, hc']

theorem nameParts_lower (name : List Char) :
    nameParts (lower name) = (nameParts name).map lower := by
  unfold nameParts
  rw [splitAt_lower (by decide), List.map_map, List.map_map]
  exact List.map_congr_left fun part _ => unquote_lower part

theorem isLiteral_lower (parts : List (List Char)) :
    isLiteral (parts.map lower) = isLiteral parts := by
  match parts with
  | [] | _ :: _ :: _ => rfl
  | [word] => exact isOneOf_lower _ word

theorem keepEquality_lower (left right rest : List Char) :
    keepEquality (lower left) (lower right) (lower rest) =
      (keepEquality left right rest).map Equality.lowered := by
  have hopens : ((trimStart (lower rest)).head? == some '(') =
      ((trimStart rest).head? == some '(') := by
    rw [trimStart_lower]
    cases trimStart rest with
    | nil => rfl
    | cons c rest => simpa using toLower_beq (show '('.isAlpha = false by decide)
  have hstrings (parts : List (List Char)) : (parts.map lower).map String.ofList =
      (parts.map String.ofList).map lowered := by
    rw [List.map_map, List.map_map]
    exact List.map_congr_left fun part _ => (lowered_ofList part).symm
  simp only [keepEquality, hopens, nameParts_lower, isLiteral_lower, hstrings]
  split <;> rfl

theorem equalitiesIn_lower (s : List Char) :
    equalitiesIn (lower s) = (equalitiesIn s).map Equality.lowered := by
  induction s using equalitiesIn.induct with
  | case1 => simp [equalitiesIn]
  | case2 c s left right rest hfound ih =>
    have hread := readEquality_lower (c :: s)
    rw [hfound] at hread
    rw [equalitiesIn_of_some hfound, equalitiesIn_of_some hread, keepEquality_lower, ih,
      List.map_append]
    congr 1
    cases keepEquality left right rest <;> rfl
  | case3 c s hfound ih =>
    have hread := readEquality_lower (c :: s)
    rw [hfound] at hread
    rw [equalitiesIn_of_none hfound, ← ih]
    exact equalitiesIn_of_none hread

/-- The equalities of a condition in small letters. -/
theorem equalities_lowered (condition : String) :
    equalities (lowered condition) = (equalities condition).map Equality.lowered := by
  unfold equalities lowered
  rw [String.toList_ofList, equalitiesIn_lower]

end Sql

end Querent
