import Querent.Proofs.Sql.Balanced
import Querent.Proofs.Sql.Name
import Querent.Proofs.Text.Search
import Querent.Sql.Join

/-! The equality reader pays no heed to quotes. It stays in step with them as long as string
literals hold no marks of quoted names, and quoted names no other marks, dots and equals signs. -/
namespace Querent.Sql

open Text

variable {quote : Option Char} {b t s name rest left right : List Char} {c m : Char}
  {opens : Char → Bool}

/-- Whether a character in quoted text leaves the equality reader in step. -/
def inStep (quote : Option Char) (c : Char) : Bool :=
  match quote with
  | none => true
  | some m =>
    if isNameQuote m then c == m || !(isNameQuote c || c == '.' || c == '=') else !isNameQuote c

/-- Whether all quoted text leaves the equality reader in step. -/
def keepsStep (quote : Option Char) : List Char → Bool
  | [] => true
  | c :: cs => inStep quote c && keepsStep (nextQuote quote c) cs

/-! ### Characters -/

theorem inName_of_isBlank (h : isBlank c = true) : inName c = false := by
  have hdollar : c ≠ '$' := by
    rintro rfl
    exact absurd h (by decide)
  simp [inName, isWordChar_of_isBlank h, hdollar]

theorem isQuote_of_isBlank (h : isBlank c = true) : isQuote c = false := by
  by_contra hquote
  simp only [isQuote, Bool.not_eq_false, Bool.or_eq_true, beq_iff_eq] at hquote
  rcases hquote with (rfl | rfl) | rfl <;> exact absurd h (by decide)

theorem isQuote_of_inName (h : inName c = true) : isQuote c = false := by
  by_contra hquote
  simp only [isQuote, Bool.not_eq_false, Bool.or_eq_true, beq_iff_eq] at hquote
  rcases hquote with (rfl | rfl) | rfl <;> exact absurd h (by decide)

theorem inName_of_opensName (h : opensName c = true) : inName c = true :=
  inName_of_isPlain (isPlain_of_opensName h)

theorem isQuote_of_isNameQuote (h : isNameQuote c = true) : isQuote c = true := by
  simp only [isNameQuote, isQuote, Bool.or_eq_true] at h ⊢
  exact h.elim (fun h => .inl (.inr h)) .inr

theorem opensName_of_isNameQuote (h : isNameQuote c = true) : opensName c = false := by
  by_contra hopen
  rw [Bool.not_eq_false] at hopen
  exact absurd (isQuote_of_isNameQuote h) (by simp [isQuote_of_inName (inName_of_opensName hopen)])

theorem isBorder_of_isNameQuote (h : isNameQuote c = true) : isBorder c = true := by
  simp only [isNameQuote, Bool.or_eq_true, beq_iff_eq] at h
  rcases h with rfl | rfl <;> decide

theorem isBlank_of_isNameQuote (h : isNameQuote c = true) : isBlank c = false := by
  by_contra hblank
  rw [Bool.not_eq_false] at hblank
  exact absurd (isQuote_of_isNameQuote h) (by simp [isQuote_of_isBlank hblank])

theorem isNameQuote_of_isBlank (h : isBlank c = true) : isNameQuote c = false := by
  by_contra hmark
  rw [Bool.not_eq_false] at hmark
  exact absurd (isBlank_of_isNameQuote hmark) (by simp [h])

theorem opensName_of_isBlank (h : isBlank c = true) : opensName c = false := by
  by_contra hopens
  rw [Bool.not_eq_false] at hopens
  exact absurd (inName_of_opensName hopens) (by simp [inName_of_isBlank h])

theorem readName_of_opensName (h : opensName c = true) : readName opensName (c :: t) =
    some (c :: t.takeWhile inName, t.dropWhile inName) := by
  simp [readName, h]

/-- A quoted name ends at the next mark like the one it opens with. -/
theorem exists_of_readName_mark (hopen : opens m = false) (hm : isNameQuote m = true)
    (h : readName opens (m :: t) = some (name, rest)) :
    ∃ inner, t = inner ++ m :: rest ∧ m ∉ inner := by
  rw [readName, if_neg (by simp [hopen]), if_pos hm] at h
  refine ⟨t.takeWhile (· != m), ?_, ?_⟩
  · cases hd : t.dropWhile (· != m) with
    | nil => simp [hd] at h
    | cons d rest' =>
      have hdm : d = m := by
        have := List.head?_dropWhile_not (· != m) t
        simpa [hd] using this
      simp only [hd] at h
      split at h
      · simp at h
      · obtain ⟨-, rfl⟩ := by simpa using h
        rw [hdm] at hd
        rw [← hd, List.takeWhile_append_dropWhile]
  · intro hmem
    simpa using List.mem_takeWhile_imp hmem

theorem opens_of_readName (h : readName opens (c :: t) = some (name, rest)) :
    opens c = true ∨ isNameQuote c = true := by
  by_contra hnone
  rw [not_or] at hnone
  simp [readName, hnone.1, hnone.2] at h

/-! ### Quotes -/

theorem nextQuote_of_not_isQuote (hquote : ∀ m ∈ quote, isQuote m = true)
    (hc : isQuote c = false) : nextQuote quote c = quote := by
  cases quote with
  | none => exact nextQuote_none hc
  | some m =>
    have hne : c ≠ m := by
      rintro rfl
      exact absurd (hquote c rfl) (by simp [hc])
    simp [nextQuote, hne]

/-- Text without marks leaves the state of quoting as it is. -/
theorem quoteAfter_of_not_isQuote (hquote : ∀ m ∈ quote, isQuote m = true)
    (hs : ∀ c ∈ s, isQuote c = false) : quoteAfter quote s = quote := by
  induction s with
  | nil => rfl
  | cons c s ih =>
    rw [quoteAfter_cons, nextQuote_of_not_isQuote hquote (hs c (by simp))]
    exact ih fun d hd => hs d (by simp [hd])

theorem quoteAfter_of_not_mem (h : m ∉ s) : quoteAfter (some m) s = some m := by
  induction s with
  | nil => rfl
  | cons c s ih =>
    obtain ⟨hc, hs⟩ : m ≠ c ∧ m ∉ s := by simpa using h
    rw [quoteAfter_cons, nextQuote_inside (Ne.symm hc)]
    exact ih hs

/-- Behind quoted text the state of quoting is as it was before. -/
theorem quoteAfter_quoted (hm : isQuote m = true) (hs : m ∉ s) :
    quoteAfter none (m :: (s ++ m :: t)) = quoteAfter none t := by
  rw [quoteAfter_cons, nextQuote_open hm, quoteAfter_append, quoteAfter_of_not_mem hs, quoteAfter_cons,
    nextQuote_close]

theorem isQuote_of_nextQuote (hquote : ∀ m ∈ quote, isQuote m = true) :
    ∀ m ∈ nextQuote quote c, isQuote m = true := by
  intro m hm
  unfold nextQuote at hm
  split at hm
  · split at hm
    · simp at hm
    · obtain rfl := Option.some.inj hm
      exact hquote _ rfl
  · split at hm
    · rename_i hc
      obtain rfl := Option.some.inj hm
      exact hc
    · simp at hm

/-- A quote that a text closes has its mark there a second time. -/
theorem mem_of_quoteAfter_cons (hc : isQuote c = true) (h : quoteAfter none (c :: s) = none) :
    c ∈ s := by
  by_contra hmem
  rw [quoteAfter_cons, nextQuote_open hc, quoteAfter_of_not_mem hmem] at h
  contradiction

theorem keepsStep_append :
    keepsStep quote (s ++ t) = (keepsStep quote s && keepsStep (quoteAfter quote s) t) := by
  induction s generalizing quote with
  | nil => rfl
  | cons c s ih => rw [List.cons_append, keepsStep, ih, keepsStep, Bool.and_assoc, quoteAfter_cons]

theorem keepsStep_of_not_isQuote (hs : ∀ c ∈ s, isQuote c = false) : keepsStep none s = true := by
  induction s with
  | nil => rfl
  | cons c s ih =>
    rw [keepsStep, nextQuote_none (hs c (by simp)), ih fun d hd => hs d (by simp [hd])]
    rfl

theorem mem_of_quoteAfter (h : quoteAfter quote s = some m) : m ∈ s ∨ quote = some m := by
  induction s generalizing quote with
  | nil => exact .inr h
  | cons c s ih =>
    rcases ih h with hs | hnext
    · exact .inl (by simp [hs])
    · unfold nextQuote at hnext
      split at hnext
      · split at hnext
        · simp at hnext
        · exact .inr hnext
      · split at hnext
        · exact .inl (by simp [Option.some.inj hnext])
        · simp at hnext

/-! ### Names before another text -/

/-- A name that a text opens with and that ends in it is read off it before any other. -/
theorem readName_append (hopens : opens c = true → inName c = true)
    (happart : Apart inName (c :: s) t) (hclosed : isNameQuote c = true → c ∈ s) :
    readName opens (c :: (s ++ t)) =
      (readName opens (c :: s)).map fun found => (found.1, found.2 ++ t) := by
  cases hc : opens c with
  | true =>
    have hspan : (s ++ t).takeWhile inName = s.takeWhile inName ∧
        (s ++ t).dropWhile inName = s.dropWhile inName ++ t := by
      refine span_append fun hs d hd => ?_
      have hall : ∀ e ∈ c :: s, inName e = true := List.forall_mem_cons.2 ⟨hopens hc, hs⟩
      have hlast := List.getLast?_eq_some_getLast (List.cons_ne_nil c s)
      exact happart _ hlast d hd (hall _ (List.getLast_mem _))
    simp [readName, hc, hspan]
  | false =>
    cases hm : isNameQuote c with
    | false => simp [readName, hc, hm]
    | true =>
      obtain ⟨a, b, rfl, ha⟩ := List.eq_append_cons_of_mem (hclosed hm)
      have hin : ∀ d ∈ a, (d != c) = true := by
        intro d hd
        rw [bne_iff_ne]
        rintro rfl
        exact ha hd
      simp only [readName, hc, hm, if_true, Bool.false_eq_true, if_false, List.append_assoc,
        List.takeWhile_append_of_pos hin, List.dropWhile_append_of_pos hin, List.cons_append,
        bne_self_eq_false, List.takeWhile_cons_of_neg, List.dropWhile_cons_of_neg, not_false_eq_true,
        List.append_nil]
      split <;> rfl

/-- Behind a name the state of quotes is the one before it. -/
theorem exists_of_readName (hopens : ∀ c, opens c = true → inName c = true)
    (hquote : ∀ m ∈ quote, isQuote m = true) (hmark : isNameQuote c = true → quote = none)
    (h : readName opens (c :: s) = some (name, rest)) :
    ∃ front, c :: s = front ++ rest ∧ quoteAfter quote front = quote := by
  cases hc : opens c with
  | true =>
    obtain ⟨-, rfl⟩ : c :: s.takeWhile inName = name ∧ s.dropWhile inName = rest := by
      simpa [readName, hc] using h
    refine ⟨c :: s.takeWhile inName, by simp, ?_⟩
    refine quoteAfter_of_not_isQuote hquote fun d hd => isQuote_of_inName ?_
    rcases List.mem_cons.1 hd with rfl | hd
    · exact hopens _ hc
    · exact List.mem_takeWhile_imp hd
  | false =>
    have hm : isNameQuote c = true := (opens_of_readName h).resolve_left (by simp [hc])
    obtain ⟨inner, rfl, hinner⟩ := exists_of_readName_mark hc hm h
    obtain rfl := hmark hm
    refine ⟨c :: (inner ++ [c]), by simp, ?_⟩
    exact quoteAfter_quoted (isQuote_of_isNameQuote hm) hinner

/-! ### Inside a quoted name -/

/-- A mark of names is in step only where it opens or closes one. -/
theorem eq_none_or_eq_some_of_inStep (hm : isNameQuote m = true) (h : inStep quote m = true) :
    quote = none ∨ quote = some m := by
  cases quote with
  | none => exact .inl rfl
  | some d =>
    unfold inStep at h
    by_cases hd : isNameQuote d = true
    · simp only [hd, hm, if_true, Bool.true_or, Bool.not_true, Bool.or_false, beq_iff_eq] at h
      exact .inr (congrArg some h.symm)
    · simp only [hd, hm, if_false, Bool.not_true, Bool.false_eq_true] at h

/-- Neither a dot nor an equals sign comes next, blanks apart. -/
def NoMark (t : List Char) : Prop := ∀ c ∈ (trimStart t).head?, c ≠ '.' ∧ c ≠ '='

theorem readEquality_eq_none (h : readName opensName t = some (name, rest)) (hrest : NoMark rest) :
    readEquality t = none := by
  have hdot : afterDot rest = none := by
    unfold afterDot
    split
    · rename_i heq
      exact absurd rfl (hrest '.' (by simp [heq])).1
    · rfl
  have hread : readDotted 2 t = some (name, rest) := by
    unfold readDotted
    simp only [h, hdot, Option.bind_none]
  rw [readEquality, hread]
  simp only [Option.bind_eq_bind, Option.bind_some]
  split
  · rename_i heq
    exact absurd rfl (hrest '=' (by simp [heq])).2
  · rfl

private theorem noMark_of_keepsStep (hm : isNameQuote m = true)
    (h : keepsStep (some m) t = true) : NoMark t := by
  have hblanks : quoteAfter (some m) (t.takeWhile isBlank) = some m :=
    quoteAfter_of_not_isQuote (by simpa using isQuote_of_isNameQuote hm)
      fun c hc => isQuote_of_isBlank (List.mem_takeWhile_imp hc)
  rw [← List.takeWhile_append_dropWhile (p := isBlank) (l := t), keepsStep_append, hblanks,
    Bool.and_eq_true] at h
  intro c hc
  rw [trimStart] at hc
  cases ht : t.dropWhile isBlank with
  | nil => simp [ht] at hc
  | cons d t' =>
    obtain rfl : d = c := by simpa [ht] using hc
    have hd : inStep (some m) d = true := by
      rw [ht, keepsStep, Bool.and_eq_true] at h
      exact h.2.1
    simp only [inStep, hm, if_true, Bool.or_eq_true, beq_iff_eq, Bool.not_eq_true',
      Bool.or_eq_false_iff, beq_eq_false_iff_ne] at hd
    rcases hd with rfl | ⟨⟨-, hdot⟩, heq⟩
    · constructor <;> (rintro rfl; exact absurd hm (by decide))
    · exact ⟨hdot, heq⟩

theorem readEquality_of_readName (h : readName opensName t = none) :
    readEquality t = none := by
  have hread : readDotted 2 t = none := by
    unfold readDotted
    simp only [h]
  rw [readEquality, hread]
  rfl

/-- No equality is read from inside a quoted name on. -/
theorem readEquality_of_name (hm : isNameQuote m = true)
    (h : keepsStep (some m) t = true) : readEquality t = none := by
  have hmark : ∀ d ∈ some m, isQuote d = true := by simpa using isQuote_of_isNameQuote hm
  cases t with
  | nil => rfl
  | cons c t =>
    rw [keepsStep, Bool.and_eq_true] at h
    cases hread : readName opensName (c :: t) with
    | none => exact readEquality_of_readName hread
    | some found =>
      obtain ⟨name, rest⟩ := found
      refine readEquality_eq_none hread (noMark_of_keepsStep hm ?_)
      rcases opens_of_readName hread with hc | hc
      · -- A bare name lies within the quoted one.
        have hplain : nextQuote (some m) c = some m :=
          nextQuote_of_not_isQuote hmark (isQuote_of_inName (inName_of_opensName hc))
        have hname : quoteAfter (some m) (t.takeWhile inName) = some m :=
          quoteAfter_of_not_isQuote hmark fun d hd =>
            isQuote_of_inName (List.mem_takeWhile_imp hd)
        have htail := h.2
        rw [hplain, ← List.takeWhile_append_dropWhile (p := inName) (l := t), keepsStep_append,
          hname, Bool.and_eq_true] at htail
        obtain ⟨-, rfl⟩ : c :: t.takeWhile inName = name ∧ t.dropWhile inName = rest := by
          simpa [readName_of_opensName hc] using hread
        exact htail.2
      · -- A name that begins at the closing mark ends where the next one opens.
        obtain rfl : m = c := by
          simpa using eq_none_or_eq_some_of_inStep hc h.1
        obtain ⟨inner, rfl, hinner⟩ :=
          exists_of_readName_mark (opensName_of_isNameQuote hc) hc hread
        have htail := h.2
        rw [nextQuote_close, keepsStep_append, Bool.and_eq_true, keepsStep, Bool.and_eq_true] at htail
        have hopen : quoteAfter none inner = none := by
          rcases eq_none_or_eq_some_of_inStep hc htail.2.1 with hnone | hsome
          · exact hnone
          · exact absurd (mem_of_quoteAfter hsome) (by simp [hinner])
        rw [hopen, nextQuote_open (isQuote_of_isNameQuote hc)] at htail
        exact htail.2.2

end Querent.Sql
