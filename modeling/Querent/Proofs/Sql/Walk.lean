import Mathlib.Data.List.TakeDrop
import Querent.Proofs.Sql.FromItem

/-! The walk along a whole FROM list: at which texts an item is looked for. It goes from item to item up
to the first behind which a word of the list's own level is one that ends lists. -/
namespace Querent.Sql

open Text

variable {d : Dialect} {s t tail : List Char} {c : Char}

/-! ### The places of items -/

/-- The texts at which the walk along a list looks for an item, in order. -/
def places (d : Dialect) (text : List Char) : List (List Char) :=
  text :: match _h : readItem d text with
    | none => []
    | some (_, rest) =>
      match _h' : nextItem rest with
      | some next => places d next
      | none => []
termination_by text.length
decreasing_by exact Nat.lt_trans (nextFrom_length ‹_›) (readItem_length ‹_›)

theorem places_of_none (h : readItem d s = none) : places d s = [s] := by
  rw [places]
  split
  · rfl
  · rename_i heq
    exact absurd (h.symm.trans heq) (by simp)

theorem places_of_readItem {ref : Option TableRef} (h : readItem d s = some (ref, t)) :
    places d s = s :: ((nextItem t).map (places d)).getD [] := by
  rw [places]
  split
  · rename_i hnone
    exact absurd (hnone.symm.trans h) (by simp)
  · rename_i rest hsome
    obtain rfl : rest = t := congrArg Prod.snd (Option.some.inj (hsome.symm.trans h))
    split <;> rename_i heq <;> simp [heq]

/-- The tables of a list are those of the items at the places. -/
theorem readItems_eq_places (d : Dialect) (s : List Char) :
    readItems d true s = (places d s).filterMap fun p => (readItem d p).bind (·.1) := by
  induction s using readItems.induct d with
  | case1 s hread => simp [readItems_of_none hread, places_of_none hread, hread]
  | case2 s ref t hread ih =>
    have hrest : ((nextItem t).map (readItems d true)).getD [] =
        (((nextItem t).map (places d)).getD []).filterMap fun p => (readItem d p).bind (·.1) := by
      cases hnext : nextItem t with
      | none => rfl
      | some next => exact ih next hnext
    rw [readItems_of_readItem hread, places_of_readItem hread, if_pos rfl, hrest]
    cases ref <;> simp [hread]

/-! ### Lists as they are written -/

/-- An item of a list, with the white space before it and the text behind it up to a comma or the end of
the list: joins with their conditions, options of the table and groups. -/
structure ListEntry where
  gap : List Char
  item : FromItem
  rest : List Char
  /-- The words of the rest that stand outside its quotes and parentheses. -/
  words : List (List Char)
  blank : ∀ c ∈ gap, isBlank c = true
  stretch : Stretch words rest

/-- No word behind an item, on the list's own level, ends the list. -/
def ListEntry.passes (e : ListEntry) : Bool := e.words.all fun w => !isOneOf listEnds w

/-- What can stand behind a whole list: nothing, the parenthesis that closes around it, or a word that
ends it. -/
inductive Closes : List Char → Prop where
  | nil : Closes []
  | paren {gap t : List Char} (blank : ∀ c ∈ gap, isBlank c = true) : Closes (gap ++ ')' :: t)
  | word {gap w t : List Char} (blank : ∀ c ∈ gap, isBlank c = true) (apart : gap ≠ [])
      (ends : isOneOf listEnds w = true) (border : ∀ c ∈ t.head?, isListChar c = false) :
      Closes (gap ++ (w ++ t))

/-- A FROM list: entries with a comma behind them, the last entry, and what stands behind the list. -/
structure FromList where
  init : List ListEntry
  last : ListEntry
  tail : List Char
  ends : ∀ e ∈ init, EndsAt e.item.calledAs e.rest
  lastEnds : EndsAt last.item.calledAs (last.rest ++ tail)
  closes : Closes tail

/-- What stands behind an entry before some others and a tail. -/
def behindEntry (tail : List Char) : List ListEntry → List Char
  | [] => tail
  | e :: es => ',' :: (e.gap ++ (e.item.text ++ (e.rest ++ behindEntry tail es)))

def entriesText (tail : List Char) : List ListEntry → List Char
  | [] => tail
  | e :: es => e.gap ++ (e.item.text ++ (e.rest ++ behindEntry tail es))

/-- The texts from each item on. -/
def starts (tail : List Char) : List ListEntry → List (List Char)
  | [] => []
  | e :: es => (e.item.text ++ (e.rest ++ behindEntry tail es)) :: starts tail es

namespace FromList

def entries (l : FromList) : List ListEntry := l.init ++ [l.last]

def text (l : FromList) : List Char := entriesText l.tail l.entries

/-- The texts from each item of the list on. -/
def starts (l : FromList) : List (List Char) := Sql.starts l.tail l.entries

/-- How many items the walk comes to: those up to the first behind which a word ends the list. -/
def reached (l : FromList) : Nat := (l.init.takeWhile ListEntry.passes).length + 1

end FromList

/-! ### The walk -/

theorem isListChar_of_isBlank (h : isBlank c = true) : isListChar c = false :=
  forall_isBlank (P := fun c => isListChar c = false) (by decide +kernel) h

theorem nextItem_blanks (hs : ∀ c ∈ s, isBlank c = true) : nextItem (s ++ t) = nextItem t := by
  induction s with
  | nil => rfl
  | cons c s ih =>
    obtain ⟨hc, hs⟩ := List.forall_mem_cons.1 hs
    have hmark : c ≠ '(' ∧ c ≠ ')' ∧ c ≠ ',' :=
      forall_isBlank (P := fun c => c ≠ '(' ∧ c ≠ ')' ∧ c ≠ ',') (by decide) hc
    have hstep : nextItem (c :: (s ++ t)) = nextItem (s ++ t) :=
      nextFrom_mark (isListChar_of_isBlank hc) (isQuote_of_isBlank hc) hmark
    rw [List.cons_append, hstep, ih hs]

theorem isListChar_of_isOneOf {w : List Char} (h : isOneOf listEnds w = true) :
    ∀ c ∈ w, isListChar c = true := by
  obtain ⟨k, hk, hsame⟩ := List.any_eq_true.1 h
  have hupper : ∀ k ∈ listEnds, k.toList.all Char.isUpper = true := by decide
  have hsame' : sameLetters w k.toList = true := by
    simp only [sameLetters, beq_iff_eq] at hsame ⊢
    exact hsame.symm
  intro c hc
  have hplain : isPlain c = true := by
    simp [isPlain, Char.isAlphanum, isAlpha_of_sameLetters (hupper k hk) hsame' c hc]
  exact forall_isPlain (P := fun c => isListChar c = true) (by decide) hplain

namespace Closes

theorem nextItem (h : Closes t) : nextItem t = none := by
  cases h with
  | nil => rfl
  | paren blank => rw [nextItem_blanks blank, nextItem_close]
  | @word gap w t blank apart ends border =>
    have hne : w ≠ [] := by
      rintro rfl
      exact absurd ends (by decide)
    have hword : Sql.nextItem (w ++ t) = _ :=
      nextFrom_word (isListChar_of_isOneOf ends) (by simpa using hne) border
    rw [nextItem_blanks blank, hword, List.reverse_nil, List.nil_append, if_pos ends]

theorem head (h : Closes t) : ∀ c ∈ t.head?, isListChar c = false := by
  have hgap {gap u : List Char} (blank : ∀ c ∈ gap, isBlank c = true)
      (hu : gap = [] → ∀ c ∈ u.head?, isListChar c = false) :
      ∀ c ∈ (gap ++ u).head?, isListChar c = false := by
    cases gap with
    | nil => exact hu rfl
    | cons b gap =>
      intro c hc
      obtain rfl : b = c := by simpa using hc
      exact isListChar_of_isBlank (blank b (by simp))
  cases h with
  | nil => simp
  | paren blank =>
    refine hgap blank fun _ c hc => ?_
    obtain rfl : ')' = c := by simpa using hc
    decide
  | word blank apart => exact hgap blank fun hnil => absurd hnil apart

end Closes

namespace ListEntry

theorem any_words (e : ListEntry) : e.words.any (isOneOf listEnds) = !e.passes := by
  simp [passes, List.any_eq_not_all_not]

/-- An entry is a place, and the walk goes on from it if no word ends the list. -/
theorem places_cons (e : ListEntry) (ht : EndsAt e.item.calledAs (e.rest ++ t))
    (hhead : ∀ c ∈ t.head?, isListChar c = false) :
    places d (e.item.text ++ (e.rest ++ t)) = (e.item.text ++ (e.rest ++ t)) ::
      if e.passes then ((nextItem t).map (places d)).getD [] else [] := by
  rw [places_of_readItem (e.item.readItem ht), e.stretch.nextItem hhead, any_words]
  cases e.passes <;> rfl

theorem trimStart_entriesText (e : ListEntry) {es : List ListEntry}
    (ht : EndsAt e.item.calledAs (e.rest ++ behindEntry tail es)) :
    trimStart (entriesText tail (e :: es)) = e.item.text ++ (e.rest ++ behindEntry tail es) := by
  rw [entriesText, trimStart_blanks e.blank, e.item.trimStart ht]

end ListEntry

/-- Each item of a list ends where its entry goes on. -/
theorem endsAt_behindEntry {es : List ListEntry} {e last : ListEntry}
    (ht : EndsAt e.item.calledAs e.rest) :
    EndsAt e.item.calledAs (e.rest ++ behindEntry tail (es ++ [last])) := by
  cases es with
  | nil => exact ht.append ItemEnd.comma.stops
  | cons e' es => exact ht.append ItemEnd.comma.stops

/-- The walk over the entries of a list comes to each up to the first that it does not pass. -/
theorem places_entriesText {es : List ListEntry} {last : ListEntry}
    (hes : ∀ e ∈ es, EndsAt e.item.calledAs e.rest)
    (hlast : EndsAt last.item.calledAs (last.rest ++ tail)) (htail : Closes tail) :
    places d (trimStart (entriesText tail (es ++ [last]))) =
      (starts tail (es ++ [last])).take ((es.takeWhile ListEntry.passes).length + 1) := by
  induction es with
  | nil =>
    have hplace : trimStart (entriesText tail [last]) = last.item.text ++ (last.rest ++ tail) :=
      last.trimStart_entriesText hlast
    rw [List.nil_append, hplace, last.places_cons hlast htail.head, htail.nextItem]
    simp [starts, behindEntry]
  | cons e es ih =>
    obtain ⟨he, hes⟩ := List.forall_mem_cons.1 hes
    have hends : EndsAt e.item.calledAs (e.rest ++ behindEntry tail (es ++ [last])) :=
      endsAt_behindEntry he
    have hbehind : behindEntry tail (es ++ [last]) = ',' :: entriesText tail (es ++ [last]) := by
      cases es <;> rfl
    have hhead : ∀ c ∈ (behindEntry tail (es ++ [last])).head?, isListChar c = false := by
      intro c hc
      obtain rfl : ',' = c := by simpa [hbehind] using hc
      decide
    have hnext : nextItem (behindEntry tail (es ++ [last])) =
        some (trimStart (entriesText tail (es ++ [last]))) := by rw [hbehind, nextItem_comma]
    rw [List.cons_append, e.trimStart_entriesText hends, e.places_cons hends hhead, hnext,
      Option.map_some, Option.getD_some, ih hes]
    cases hpass : e.passes <;> simp [hpass, starts]

theorem length_starts (es : List ListEntry) : (starts tail es).length = es.length := by
  induction es with
  | nil => rfl
  | cons e es ih => simp [starts, ih]

/-- What is read at the places of a list are its items. -/
theorem filterMap_starts {es : List ListEntry} {last : ListEntry}
    (hes : ∀ e ∈ es, EndsAt e.item.calledAs e.rest)
    (hlast : EndsAt last.item.calledAs (last.rest ++ tail)) :
    ∀ n, ((starts tail (es ++ [last])).take n).filterMap (fun p => (readItem d p).bind (·.1)) =
      ((es ++ [last]).take n).filterMap (·.item.ref d) := by
  induction es with
  | nil =>
    intro n
    have hread := last.item.readItem (d := d) hlast
    cases n with
    | zero => rfl
    | succ n => simp [starts, behindEntry, hread, List.filterMap_cons]
  | cons e es ih =>
    obtain ⟨he, hes⟩ := List.forall_mem_cons.1 hes
    have hread := e.item.readItem (d := d) (t := e.rest ++ behindEntry tail (es ++ [last]))
      (endsAt_behindEntry he)
    intro n
    cases n with
    | zero => rfl
    | succ n => simp [starts, hread, ih hes n, List.filterMap_cons]

namespace FromList

variable (l : FromList)

theorem places_text : places d (trimStart l.text) = l.starts.take l.reached :=
  places_entriesText l.ends l.lastEnds l.closes

theorem readItems_text : readItems d true (trimStart l.text) =
    (l.entries.take l.reached).filterMap (·.item.ref d) := by
  rw [readItems_eq_places, l.places_text]
  exact filterMap_starts l.ends l.lastEnds l.reached

/-- The walk comes to every item exactly if it passes all entries but the last. -/
theorem take_reached_starts : l.starts.take l.reached = l.starts ↔ ∀ e ∈ l.init, e.passes = true := by
  have hprefix : l.init.takeWhile ListEntry.passes <+: l.init := List.takeWhile_prefix _
  have hlength : l.starts.length = l.init.length + 1 := by
    rw [starts, length_starts, entries, List.length_append, List.length_singleton]
  rw [List.take_eq_self_iff, hlength, reached, Nat.add_le_add_iff_right, ← List.takeWhile_eq_self_iff]
  constructor
  · exact fun h => hprefix.eq_of_length (Nat.le_antisymm hprefix.length_le h)
  · exact fun h => Nat.le_of_eq (congrArg List.length h.symm)

end FromList

end Querent.Sql
