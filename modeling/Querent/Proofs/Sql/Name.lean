import Querent.Proofs.Text.Plain
import Querent.Sql.FromList

/-! Bare names of ASCII that are no word of a clause, and how the readers of names take one from
the front of a text. -/
namespace Querent.Sql

open Text

/-- The words that have a place of their own in a FROM clause or before one. -/
def clauseWords : List String := reserved ++ listEnds ++ ["ONLY", "DISTINCT"]

/-- A letter or an underscore, then letters, digits and underscores of ASCII; in no case one of the
clause words or of the words banned besides. -/
structure Name (banned : List String) where
  text : List Char
  opens : text.head?.any opensName = true
  plain : text.all isPlain = true
  free : isOneOf (clauseWords ++ banned) text = false

variable {banned ks ks' : List String} {w t name : List Char} {c : Char}

theorem isOneOf_eq_false : isOneOf ks w = false ↔ ∀ k ∈ ks, sameLetters k.toList w = false := by
  simp [isOneOf]

theorem isOneOf_of_subset (h : ks ⊆ ks') (hw : isOneOf ks' w = false) : isOneOf ks w = false :=
  isOneOf_eq_false.2 fun k hk => isOneOf_eq_false.1 hw k (h hk)

namespace Name

theorem forall_isPlain (n : Name banned) : ∀ c ∈ n.text, isPlain c = true :=
  List.all_eq_true.1 n.plain

theorem exists_cons (n : Name banned) : ∃ c cs, n.text = c :: cs ∧ opensName c = true := by
  have h := n.opens
  cases ht : n.text with
  | nil => simp [ht] at h
  | cons c cs => exact ⟨c, cs, rfl, by simpa [ht] using h⟩

theorem ne_nil (n : Name banned) : n.text ≠ [] := by
  obtain ⟨c, cs, h, -⟩ := n.exists_cons
  simp [h]

theorem isOneOf_eq_false (n : Name banned) (h : ks ⊆ clauseWords ++ banned) :
    isOneOf ks n.text = false := isOneOf_of_subset h n.free

/-- The words of the language are no names. -/
theorem isOneOf_clauseWords (n : Name banned) (h : ks ⊆ clauseWords) : isOneOf ks n.text = false :=
  n.isOneOf_eq_false fun _ hk => List.mem_append_left _ (h hk)

theorem not_isReserved (n : Name banned) : isReserved n.text = false :=
  n.isOneOf_clauseWords fun _ hk => List.mem_append_left _ (List.mem_append_left _ hk)

theorem sameLetters_eq_false {k : String} (n : Name banned) (h : k ∈ clauseWords) :
    sameLetters k.toList n.text = false :=
  Sql.isOneOf_eq_false.1 n.free k (List.mem_append_left _ h)

theorem spells_eq_false {k : String} (n : Name banned) (h : k ∈ clauseWords)
    (hk : k.toList.all (fun c => c.isUpper || c == '_') = true := by decide) :
    spells k n.text = false := by
  rw [spells_eq_sameLetters hk n.forall_isPlain]
  exact n.sameLetters_eq_false h

end Name

theorem inName_of_isWordChar (h : isWordChar c = true) : inName c = true := by
  simp [inName, h]

theorem inName_of_isPlain (h : isPlain c = true) : inName c = true :=
  inName_of_isWordChar (isWordChar_of_isPlain h)

theorem inName_of_isBorder (h : isBorder c = true) : inName c = false :=
  forall_isBorder (P := fun c => inName c = false) (by decide) h

theorem isPlain_of_opensName (h : opensName c = true) : isPlain c = true := by
  simp only [opensName, isPlain, Char.isAlphanum, Bool.or_eq_true] at h ⊢
  exact h.imp_left Or.inl

/-- A plain word is read as a name up to a border. -/
theorem readName_plain {opens : Char → Bool} {cs : List Char} (hopen : opens c = true)
    (hw : ∀ d ∈ cs, isPlain d = true) (ht : Border t) :
    readName opens (c :: cs ++ t) = some (c :: cs, t) := by
  have htake := takeWhile_plain (p := inName) (fun _ => inName_of_isPlain)
    (fun _ => inName_of_isBorder) hw ht
  have hdrop := dropWhile_plain (p := inName) (fun _ => inName_of_isPlain)
    (fun _ => inName_of_isBorder) hw ht
  rw [List.cons_append, readName, if_pos hopen, htake, hdrop]

theorem Name.readName (n : Name banned) {opens : Char → Bool}
    (hopen : ∀ c, opensName c = true → opens c = true) (ht : Border t) :
    readName opens (n.text ++ t) = some (n.text, t) := by
  obtain ⟨c, cs, h, hc⟩ := n.exists_cons
  have hcs : ∀ d ∈ cs, isPlain d = true := fun d hd => n.forall_isPlain d (by simp [h, hd])
  rw [h]
  exact readName_plain (hopen c hc) hcs ht

theorem trimStart_cons (h : isBlank c = false) : trimStart (c :: t) = c :: t := by
  simp [trimStart, h]

theorem trimStart_blank : trimStart (' ' :: t) = trimStart t := rfl

theorem Name.trimStart (n : Name banned) : trimStart (n.text ++ t) = n.text ++ t := by
  obtain ⟨c, cs, h, -⟩ := n.exists_cons
  have hc : isBlank c = false := isBlank_of_isPlain (n.forall_isPlain c (by simp [h]))
  rw [h, List.cons_append, trimStart_cons hc]

theorem dropWhile_eq_self {p : Char → Bool} {l : List Char} (h : ∀ c ∈ l, p c = false) :
    l.dropWhile p = l := by
  cases l with
  | nil => rfl
  | cons c l => simp [h c (by simp)]

/-- A name without blanks and quotes has nothing to lose. -/
theorem unquote_eq_self (hblank : ∀ c ∈ w, isBlank c = false)
    (hquote : ∀ c ∈ w, isNameQuote c = false) : unquote w = w := by
  have htrim : trim w = w := by
    rw [trim, trimEnd, Text.trimStart, dropWhile_eq_self hblank,
      dropWhile_eq_self (by simpa using hblank), List.reverse_reverse]
  rw [unquote, htrim, dropWhile_eq_self hquote, dropWhile_eq_self (by simpa using hquote),
    List.reverse_reverse]

theorem unquote_plain (hw : ∀ c ∈ w, isPlain c = true) : unquote w = w :=
  unquote_eq_self (fun c hc => isBlank_of_isPlain (hw c hc)) fun c hc =>
    Text.forall_isPlain (P := fun c => isNameQuote c = false) (by decide) (hw c hc)

theorem Name.unquote (n : Name banned) : unquote n.text = n.text := unquote_plain n.forall_isPlain

/-- No AS stands at the front of a text that opens with another plain word. -/
theorem afterAs_plain (hne : w ≠ []) (hw : ∀ c ∈ w, isPlain c = true)
    (has : sameLetters "AS".toList w = false) (ht : Border t) : afterAs (w ++ t) = none := by
  have hborder : ∀ d, isBorder d = true → (keyLetter d == 'S') = false := fun d hd =>
    forall_isBorder (P := fun d => (keyLetter d == 'S') = false) (by decide) hd
  rcases w with _ | ⟨a, _ | ⟨s, _ | ⟨c, w⟩⟩⟩
  · exact absurd rfl hne
  · rcases t with _ | ⟨d, _ | ⟨e, t⟩⟩
    · rfl
    · rfl
    · have hd := hborder d (border_cons.1 ht)
      have hspell : spells "AS" [a, d] = false := by
        simp_all [spells]
      simp [afterAs, hspell]
  · rcases t with _ | ⟨d, t⟩
    · rfl
    · have hspell : spells "AS" [a, s] = false := by
        rw [spells_eq_sameLetters (by decide) hw, has]
      simp [afterAs, hspell]
  · have hc : isBlank c = false := isBlank_of_isPlain (hw c (by simp))
    simp [afterAs, hc]

end Querent.Sql
