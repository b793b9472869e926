import Querent.Proofs.Guard.Executed
import Querent.Proofs.Guard.Queries

/-! Queries that write what they select. No check looks for the word INTO: the text that runs has it
outside quotes exactly if the statement does, and a query that may run may run with it. -/
namespace Querent

open Text Sql

namespace Sql

variable {k : String} {s t lead tail before word after : List Char}

/-! ### Words outside quotes -/

/-- A keyword stands in a text as a whole word outside quotes, in any letter case. -/
def OccursUnquoted (keyword : String) (text : List Char) : Prop :=
  ∃ before word after, text = before ++ (word ++ after) ∧ WholeWord before word after ∧
    spells keyword word = true ∧ quoteAfter none before = none

theorem occursUnquoted_iff_occurs (hs : ∀ c ∈ s, isQuote c = false) :
    OccursUnquoted k s ↔ Occurs k s := by
  constructor
  · rintro ⟨before, word, after, rfl, hwhole, hspells, -⟩
    exact ⟨before, word, after, rfl, hwhole, hspells⟩
  · rintro ⟨before, word, after, rfl, hwhole, hspells⟩
    refine ⟨before, word, after, rfl, hwhole, hspells, quoteAfter_of_not_isQuote (by simp) ?_⟩
    exact fun c hc => hs c (List.mem_append_left _ hc)

/-- A text in front that holds no word and no quote mark makes no difference. -/
theorem occursUnquoted_append_left (hword : ∀ c ∈ lead, isWordChar c = false)
    (hquote : ∀ c ∈ lead, isQuote c = false) :
    OccursUnquoted k (lead ++ s) ↔ OccursUnquoted k s := by
  have hopen : quoteAfter none lead = none := quoteAfter_of_not_isQuote (by simp) hquote
  constructor
  · rintro ⟨before, word, after, hsplit, hwhole, hspells, houtside⟩
    rcases List.append_eq_append_iff.1 hsplit with ⟨more, rfl, rfl⟩ | ⟨more, rfl, hrest⟩
    · rw [quoteAfter_append, hopen] at houtside
      exact ⟨more, word, after, rfl, hwhole.behind, hspells, houtside⟩
    · -- The word cannot begin among the characters in front, none of which belongs to a word.
      cases more with
      | nil => exact ⟨[], word, after, hrest.symm, hwhole.at_front, hspells, rfl⟩
      | cons c more =>
        obtain ⟨d, ds, rfl⟩ := List.exists_cons_of_ne_nil hwhole.ne_nil
        obtain rfl : d = c := (List.cons.inj hrest).1
        have hfree := hword d (by simp)
        rw [hwhole.chars d (by simp)] at hfree
        contradiction
  · rintro ⟨before, word, after, rfl, hwhole, hspells, houtside⟩
    refine ⟨lead ++ before, word, after, by simp, ⟨hwhole.ne_nil, hwhole.chars, ?_, hwhole.right⟩,
      hspells, by rw [quoteAfter_append, hopen, houtside]⟩
    intro c hc
    rw [List.getLast?_append] at hc
    cases hlast : before.getLast? with
    | none =>
      rw [hlast, Option.none_or] at hc
      exact hword c (List.mem_of_getLast? hc)
    | some d =>
      rw [hlast, Option.some_or] at hc
      exact hwhole.left c (hlast ▸ hc)

/-- A text behind that does not hold the keyword makes no difference either. -/
theorem occursUnquoted_append_right (h : Apart isWordChar s tail)
    (hk : ∀ w ∈ words tail, spells k w = false) :
    OccursUnquoted k (s ++ tail) ↔ OccursUnquoted k s := by
  have hnone : ∀ {before word after}, tail = before ++ (word ++ after) →
      WholeWord before word after → spells k word = true → False := by
    intro before word after htail hwhole hspells
    rw [hk word (mem_words_iff.2 ⟨before, after, htail, hwhole⟩)] at hspells
    contradiction
  constructor
  · rintro ⟨before, word, after, hsplit, hwhole, hspells, houtside⟩
    rcases List.append_eq_append_iff.1 hsplit with ⟨more, rfl, htail⟩ | ⟨more, rfl, hrest⟩
    · exact (hnone htail hwhole.behind hspells).elim
    · rcases List.append_eq_append_iff.1 hrest with ⟨rest, rfl, rfl⟩ | ⟨rest, rfl, rfl⟩
      · refine ⟨before, word, rest, rfl, hwhole.congr_right fun c hc => hwhole.right c ?_, hspells,
          houtside⟩
        rw [List.head?_append, Option.mem_def.1 hc]
        rfl
      · -- Nor can the word go on from one text into the other.
        cases rest with
        | nil =>
          rw [List.append_nil] at hwhole hspells
          exact ⟨before, more, [], by simp, hwhole.congr_right (by simp), hspells, houtside⟩
        | cons c rest =>
          rcases List.eq_nil_or_concat more with rfl | ⟨more, d, rfl⟩
          · exact (hnone rfl hwhole.at_front hspells).elim
          · have hlast := h d (by simp) c (by simp) (hwhole.chars d (by simp))
            rw [hwhole.chars c (by simp)] at hlast
            contradiction
  · rintro ⟨before, word, after, rfl, hwhole, hspells, houtside⟩
    exact ⟨before, word, after ++ tail, by simp, hwhole.append_right h, hspells, houtside⟩

/-! ### Queries into a table -/

/-- The text of a query with an INTO and a name before its first FROM of a clause. -/
def Query.textInto (name : Query.Word) : Query → List Char
  | .select first others items filter =>
    "SELECT ".toList ++ (selectText first others ++ (" INTO ".toList ++ (name.text ++
      (" FROM ".toList ++ (items.text ++ filter.text)))))
  | .union all left right =>
    left.textInto name ++ ((if all then " UNION ALL ".toList else " UNION ".toList) ++ right.text)

namespace Query

variable {d : Dialect} {name : Query.Word} {q : Query} {refs : List TableRef}
  {keys : List ForeignKey}

theorem textInto_select (first : Selected) (others : List Selected) (items : Items)
    (filter : Filter) : (Query.select first others items filter).textInto name =
      "SELECT ".toList ++ (selectText first others ++ (" INTO ".toList ++ (name.text ++
        (" FROM ".toList ++ (items.text ++ filter.text))))) := rfl

theorem textInto_union (all : Bool) (left right : Query) :
    (Query.union all left right).textInto name = left.textInto name ++
      ((if all then " UNION ALL ".toList else " UNION ".toList) ++ right.text) := rfl

/-- The INTO and the name stand between two parts of the query, the first without a JOIN. -/
theorem exists_into (name : Query.Word) (q : Query) : ∃ head tail,
    q.text = head ++ (" FROM ".toList ++ tail) ∧
    q.textInto name = head ++ (" INTO ".toList ++ (name.text ++ (" FROM ".toList ++ tail))) ∧
    (∃ list, head = "SELECT ".toList ++ list) ∧ Without ["ON", "JOIN"] head := by
  cases q with
  | select first others items filter =>
    have hlist : Without ["ON", "JOIN"] ("SELECT ".toList ++ selectText first others) :=
      .append (.of_decide (by decide)) (selectText_without first others) (apart_of_last (by decide))
    exact ⟨"SELECT ".toList ++ selectText first others, items.text ++ filter.text,
      by rw [text_select, List.append_assoc], by rw [textInto_select, List.append_assoc],
      ⟨_, rfl⟩, hlist⟩
  | union all left right =>
    obtain ⟨head, tail, htext, hinto, hselect, hfree⟩ := left.exists_into name
    exact ⟨head, tail ++ ((if all then " UNION ALL ".toList else " UNION ".toList) ++ right.text),
      by simp only [text_union, htext, List.append_assoc],
      by simp only [textInto_union, hinto, List.append_assoc], hselect, hfree⟩

theorem words_textInto (name : Query.Word) (q : Query) : ∃ ws vs, words q.text = ws ++ vs ∧
    words (q.textInto name) = ws ++ ("INTO".toList :: name.text :: vs) := by
  obtain ⟨head, tail, htext, hinto, -, -⟩ := q.exists_into name
  have hname : words name.text = [name.text] :=
    words_word name.ne_nil fun c hc => isWordChar_of_isPlain (name.forall_isPlain c hc)
  have hblank : isWordChar ' ' = false := by decide
  refine ⟨words head, words ("FROM ".toList ++ tail), ?_, ?_⟩
  · rw [htext]
    exact words_append_cons hblank
  · have hinto' : q.textInto name =
        head ++ ' ' :: ("INTO".toList ++ ' ' :: (name.text ++ ' ' :: ("FROM ".toList ++ tail))) :=
      hinto
    rw [hinto', words_keyword (k := "INTO".toList) (by decide), words_append_cons hblank, hname]
    rfl

theorem hasWord_into (name : Query.Word) (q : Query) : hasWord "INTO" (q.textInto name) = true := by
  have hspells : spells "INTO" "INTO".toList = true := by decide
  obtain ⟨ws, vs, -, hwords⟩ := q.words_textInto name
  rw [hasWord_eq_any, hwords]
  simp only [List.any_append, List.any_cons, hspells, Bool.true_or, Bool.or_true]

theorem isQueryChar_of_mem_textInto (name : Query.Word) (q : Query) :
    ∀ c ∈ q.textInto name, isQueryChar c = true := by
  obtain ⟨head, tail, htext, hinto, -, -⟩ := q.exists_into name
  have hchars := q.piece.chars
  have hname := (Without.of_lacks (name.lacks joinParts_subset)).chars
  have hword : ∀ c ∈ " INTO ".toList, isQueryChar c = true := List.all_eq_true.1 (by decide)
  rw [htext, List.forall_mem_append] at hchars
  rw [hinto, List.forall_mem_append, List.forall_mem_append, List.forall_mem_append]
  exact ⟨hchars.1, hword, hname, hchars.2⟩

theorem joins_textInto (name : Query.Word) (q : Query) :
    joins (q.textInto name) = joins q.text := by
  obtain ⟨head, tail, htext, hinto, -, hfree⟩ := q.exists_into name
  have hname : Without ["ON", "JOIN"] (" INTO ".toList ++ name.text) :=
    .append (.of_decide (by decide)) (.of_lacks (name.lacks joinParts_subset))
      (apart_of_last (by decide))
  have hlong : Without ["ON", "JOIN"] (head ++ (" INTO ".toList ++ name.text)) :=
    hfree.append hname (apart_cons (by decide))
  have hassoc : q.textInto name =
      (head ++ (" INTO ".toList ++ name.text)) ++ (" FROM ".toList ++ tail) := by
    rw [hinto]
    simp only [List.append_assoc]
  have hborder : Border (" FROM ".toList ++ tail) := border_cons.2 (by decide)
  rw [hassoc, htext, joins_append (hlong.spells (by simp) (by decide)) (apart_of_border hborder),
    joins_append (hfree.spells (by simp) (by decide)) (apart_of_border hborder)]

theorem balanced_textInto (name : Query.Word) (q : Query) : Balanced (q.textInto name) := by
  cases q with
  | select first others items filter =>
    have hselect : Balanced "SELECT ".toList := (by decide : Flat _).balanced
    have hinto : Balanced " INTO ".toList := (by decide : Flat _).balanced
    have hfrom : Balanced " FROM ".toList := (by decide : Flat _).balanced
    exact .append hselect (.append (selectText_balanced first others) (.append hinto
      (.append (name.lacks listWords_subset).balanced
        (.append hfrom (.append items.balanced filter.balanced)))))
  | union all left right =>
    exact .append (left.balanced_textInto name) (.append (balanced_union all) right.balanced)

/-- The INTO hides no table. -/
theorem finds_into (name : Query.Word) {before t : List Char} (hplace : ClausePlace before)
    (ht : ListEnd t) (q : Query) : Finds d before (q.textInto name) t (q.tables d) := by
  cases q with
  | select first others items filter =>
    have hselect : Balanced "SELECT ".toList := (by decide : Flat _).balanced
    have hinto : Balanced " INTO ".toList := (by decide : Flat _).balanced
    have hfrom : Balanced " FROM ".toList := (by decide : Flat _).balanced
    have hlist := hplace.append hselect
    have hname := (hlist.append (selectText_balanced first others)).append hinto
    have hend := hname.append (name.lacks listWords_subset).balanced
    have hitems := hend.append hfrom
    have hopens := hend.opensClause (name.clauseLead (border_cons.2 (by decide)))
    have hrest : ListEnd (filter.text ++ t) := filter.listEnd ht
    exact .skip (.lead (s := "SELECT".toList) (by decide) (by decide))
      (.skip (selectText_finds first others hlist (border_cons.2 (by decide))
          (border_cons.2 (by decide)))
        (.skip (.lead (s := " INTO".toList) (by decide) (by decide))
          (.skip ((name.lacks listWords_subset).finds (border_cons.2 (by decide)))
            (finds_from hopens hrest (items.finds hitems rfl hrest.item)
              (filter.finds (hitems.append items.balanced) ht.border)))))
  | union all left right =>
    exact (left.finds_into name hplace (.ofUnion all)).append
      (finds_union all (hplace.append (left.balanced_textInto name)) fun h => right.finds h ht)

theorem tables_textInto_perm (name : Query.Word) (q : Query) :
    (Sql.tables d (q.textInto name)).Perm (q.tables d) := by
  have hfound : (tablesFrom d [] (q.textInto name ++ [])).Perm
      (q.tables d ++ tablesFrom d ((q.textInto name).reverse ++ []) []) :=
    Query.finds_into name .start .nil q
  rw [tablesFrom_nil, List.append_nil, List.append_nil] at hfound
  exact hfound

end Query

end Sql

namespace Guard

variable {keys : List ForeignKey} {policy : Policy} {sql sql' out : String} {s : List Char}
  {q : Query} {name : Query.Word} {k : String}

/-! ### The text that runs -/

/-- With a row limit a text holds the same words outside quotes, short of LIMIT and the number. -/
theorem occursUnquoted_withLimit (hlimit : spells k "LIMIT".toList = false)
    (halpha : k.toList.all Char.isAlpha = true) (n : Nat) (s : List Char) :
    OccursUnquoted k (withLimit n s) ↔ OccursUnquoted k s := by
  unfold withLimit
  split
  · rfl
  · obtain ⟨lead, tail, hs, hlead, htail⟩ := exists_body_append s
    have hend : ∀ c ∈ tail, isWordChar c = false := by
      intro c hc
      rcases htail c hc with rfl | hblank
      · decide
      · exact isWordChar_of_isBlank hblank
    have hnone : words tail = [] := by simpa using words_append_right (s := []) hend
    have hwords : words (" LIMIT " ++ toString n).toList =
        ["LIMIT".toList, (toString n).toList] := words_append_limit [] n
    have hbody : OccursUnquoted k s ↔ OccursUnquoted k (body s) := by
      conv_lhs => rw [hs]
      rw [occursUnquoted_append_left (fun c hc => isWordChar_of_isBlank (hlead c hc))
          (fun c hc => isQuote_of_isBlank (hlead c hc)),
        occursUnquoted_append_right (fun _ _ d hd _ => hend d (List.mem_of_mem_head? hd))
          (by simp [hnone])]
    have hborder : Border (" LIMIT " ++ toString n).toList := by
      rw [String.toList_append]
      exact border_cons.2 (by decide)
    rw [hbody]
    refine occursUnquoted_append_right (apart_of_border hborder) ?_
    rw [hwords]
    simp only [List.mem_cons, List.not_mem_nil, or_false]
    rintro w (rfl | rfl)
    · exact hlimit
    · exact not_spells_toString halpha n

/-! ### Queries into a table -/

theorem hasWord_textInto (hk : k ∈ refusedKeywords) : hasWord k (q.textInto name) = false ↔
    hasWord k q.text = false ∧ sameLetters k.toList name.text = false := by
  have hnone : ∀ k ∈ refusedKeywords, spells k "INTO".toList = false := by decide
  have hupper : ∀ k ∈ refusedKeywords, k.toList.all (fun c => c.isUpper || c == '_') = true := by
    decide
  obtain ⟨ws, vs, hwords, hinto⟩ := q.words_textInto name
  rw [hasWord_eq_any, hasWord_eq_any, hwords, hinto,
    ← spells_eq_sameLetters (hupper k hk) name.forall_isPlain]
  simp only [List.any_append, List.any_cons, hnone k hk, Bool.false_or, Bool.or_eq_false_iff]
  tauto

/-- A query with an INTO is accepted if the query without it is and no refused keyword names the
table. -/
theorem accepted_into_iff (hq : readText sql = q.text) (hinto : readText sql' = q.textInto name) :
    (∃ out, validate keys policy sql' = .ok out) ↔
      (∃ out, validate keys policy sql = .ok out) ∧ isOneOf refusedKeywords name.text = false := by
  obtain ⟨head, tail, -, hsplit, ⟨list, rfl⟩, -⟩ := q.exists_into name
  have hopens : opensAsQuery (q.textInto name) = true := by
    rw [hsplit, List.append_assoc]
    exact opensAsQuery_select _
  have hsingle : isSingle (q.textInto name) = true :=
    isSingle_of_isQueryChar (q.isQueryChar_of_mem_textInto name)
  have hrefs : ∀ r, r ∈ tables policy.dialect (q.textInto name) ↔ r ∈ q.tables policy.dialect :=
    fun _ => (q.tables_textInto_perm name).mem_iff
  have hwords : (∀ k ∈ refusedKeywords, hasWord k (q.textInto name) = false) ↔
      (∀ k ∈ refusedKeywords, hasWord k q.text = false) ∧
        isOneOf refusedKeywords name.text = false := by
    rw [isOneOf_eq_false, ← forall₂_and]
    exact forall₂_congr fun k hk => hasWord_textInto hk
  have hjoins : ∀ refs, checkJoins keys refs (q.textInto name) = checkJoins keys refs q.text := by
    intro refs
    rw [checkJoins, q.joins_textInto name]
    rfl
  rw [accepted_query_iff hq, accepted_text_iff hinto hopens hsingle hrefs, hwords, hjoins]
  tauto

/-- Where the text that is read holds no quote mark the statement without comments holds none. -/
theorem not_isQuote_of_readText (h : ∀ c ∈ readText sql, isQuote c = false) :
    ∀ c ∈ stripComments sql.toList, isQuote c = false := by
  intro c hc
  by_cases hblank : isBlank c = true
  · exact isQuote_of_isBlank hblank
  · rw [Bool.not_eq_true] at hblank
    exact h c ((mem_normalize hblank).2 hc)

/-- No refused keyword is among the words of the text that runs, and it holds an INTO outside quotes
exactly if the statement without comments does. A query with an INTO is accepted exactly if the
query without it is and no refused keyword names its table, and it runs with its INTO. -/
theorem validate_into (keys : List ForeignKey) (policy : Policy) :
    (∀ sql out, validate keys policy sql = .ok out →
      (∀ k ∈ refusedKeywords, ¬ Occurs k out.toList) ∧
      (OccursUnquoted "INTO" out.toList ↔ OccursUnquoted "INTO" (stripComments sql.toList))) ∧
    ∀ sql sql' (q : Query) (name : Query.Word), readText sql = q.text →
      readText sql' = q.textInto name →
      ((∃ out, validate keys policy sql' = .ok out) ↔
        (∃ out, validate keys policy sql = .ok out) ∧
          isOneOf refusedKeywords name.text = false) ∧
      ∀ out, validate keys policy sql' = .ok out → OccursUnquoted "INTO" out.toList := by
  have hruns : ∀ sql out, validate keys policy sql = .ok out →
      (OccursUnquoted "INTO" out.toList ↔ OccursUnquoted "INTO" (stripComments sql.toList)) := by
    intro sql out h
    obtain ⟨-, -, rfl⟩ := validate_eq_ok.1 h
    rw [String.toList_ofList]
    exact occursUnquoted_withLimit (by decide) (by decide) _ _
  refine ⟨fun sql out h => ⟨fun k hk hocc => ?_, hruns sql out h⟩, ?_⟩
  · obtain ⟨hwords, -, rfl⟩ := validate_eq_ok.1 h
    rw [String.toList_ofList, ← hasWord_iff_occurs, hasWord_withLimit hk,
      (checkWords_eq_ok.1 hwords).2.1 k hk] at hocc
    contradiction
  · intro sql sql' q name hq hinto
    refine ⟨accepted_into_iff hq hinto, fun out h => (hruns sql' out h).2 ?_⟩
    have hquote : ∀ c ∈ stripComments sql'.toList, isQuote c = false := by
      apply not_isQuote_of_readText
      rw [hinto]
      exact fun c hc => (not_isQuote_of_isQueryChar (q.isQueryChar_of_mem_textInto name c hc)).1
    have hhas : hasWord "INTO" (readText sql') = true := by
      rw [hinto]
      exact q.hasWord_into name
    rwa [occursUnquoted_iff_occurs hquote, ← hasWord_iff_occurs, ← hasWord_normalize]

/-- `SELECT * FROM sales`. -/
def salesQuery : Query :=
  .select .star [] (.one (.table ⟨false, none, sales, none⟩) .nil) .none
where
  sales : Query.Word := ⟨"sales".toList, by decide, by decide, by decide⟩

/-- A copy of a table may be made like any query of it. -/
theorem validate_into_backup :
    let name : Query.Word := ⟨"backup".toList, by decide, by decide, by decide⟩
    (∃ out, validate [] strictPolicy (.ofList (salesQuery.textInto name)) = .ok out) ∧
      ∀ out, validate [] strictPolicy (.ofList (salesQuery.textInto name)) = .ok out →
        OccursUnquoted "INTO" out.toList := by
  intro name
  obtain ⟨-, hinto⟩ := validate_into [] strictPolicy
  have hread : readText (.ofList salesQuery.text) = salesQuery.text := by decide +kernel
  have hreadInto : readText (.ofList (salesQuery.textInto name)) = salesQuery.textInto name := by
    decide +kernel
  have hok : ∃ out, validate [] strictPolicy (.ofList salesQuery.text) = .ok out :=
    ⟨"SELECT * FROM sales LIMIT 101", eq_ok_of_toOption (by decide +kernel)⟩
  obtain ⟨hiff, hruns⟩ := hinto _ _ salesQuery name hread hreadInto
  exact ⟨hiff.2 ⟨hok, by decide⟩, hruns⟩

/-- The statement that makes a table of what it selects runs, and so does the one that makes a
file. -/
theorem into_overlooked :
    (validate [] ⟨.postgres, none, 101, true⟩ "SELECT * INTO backup FROM orders" =
        .ok "SELECT * INTO backup FROM orders LIMIT 101" ∧
      OccursUnquoted "INTO" "SELECT * INTO backup FROM orders LIMIT 101".toList) ∧
    validate [] ⟨.mysql, none, 101, true⟩ "SELECT * INTO OUTFILE '/tmp/orders' FROM orders" =
        .ok "SELECT * INTO OUTFILE '/tmp/orders' FROM orders LIMIT 101" ∧
      OccursUnquoted "INTO" "SELECT * INTO OUTFILE '/tmp/orders' FROM orders LIMIT 101".toList := by
  have hword : ∀ after, WholeWord "SELECT * ".toList "INTO".toList (' ' :: after) := by
    intro after
    refine ⟨by decide, List.all_eq_true.1 (by decide), fun c hc => ?_, fun c hc => ?_⟩
    · obtain rfl : ' ' = c := by simpa using hc
      decide
    · obtain rfl : ' ' = c := by simpa using hc
      decide
  refine ⟨⟨eq_ok_of_toOption (by decide +kernel), ?_⟩, eq_ok_of_toOption (by decide +kernel), ?_⟩
  · exact ⟨_, _, _, rfl, hword "backup FROM orders LIMIT 101".toList, by decide, by decide⟩
  · exact ⟨_, _, _, rfl, hword "OUTFILE '/tmp/orders' FROM orders LIMIT 101".toList, by decide,
      by decide⟩

end Guard

end Querent
