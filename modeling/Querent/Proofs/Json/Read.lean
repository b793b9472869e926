import Querent.Json.Fields
import Querent.Proofs.Json.Members
import Querent.Proofs.Json.Printed

/-! Printed JSON read back: either layout of a value gives its tree. -/
namespace Querent.Json

mutual

/-- The tree that a value is read back as: a number is what its text is read as. -/
def readTree : Json → Tree
  | null => .null
  | bool b => .bool b
  | number n => .number (numberOf n.literal)
  | string s => .string (some s)
  | array items => .array (readTrees items)
  | object members => .object (readMemberTrees members)

def readTrees : List Json → List Tree
  | [] => []
  | v :: rest => readTree v :: readTrees rest

def readMemberTrees : List (String × Json) → List (Option String × Tree)
  | [] => []
  | (k, v) :: rest => (some k, readTree v) :: readMemberTrees rest

end

/-- A value opens with a token of its own. -/
theorem tokens_eq_cons (v : Json) : ∃ t ts, tokens v = t :: ts ∧ t ≠ .closeArray := by
  cases v <;> exact ⟨_, _, rfl, nofun⟩

theorem tokensOfItems_eq_cons (v : Json) (vs : List Json) :
    ∃ t ts, tokensOfItems (v :: vs) = t :: ts ∧ t ≠ .closeArray := by
  obtain ⟨t, ts, htokens, ht⟩ := tokens_eq_cons v
  cases vs with
  | nil => exact ⟨t, ts, htokens, ht⟩
  | cons w vs =>
    refine ⟨t, ts ++ .comma :: tokensOfItems (w :: vs), ?_, ht⟩
    rw [tokensOfItems, htokens, List.cons_append]
    simp

mutual

/-- The tokens of a value are read as its tree. There is fuel enough where there is as much of it
as there are tokens. -/
theorem readValue_tokens {fuel : Nat} {rest : List Token} (v : Json)
    (hfuel : (tokens v).length ≤ fuel) :
    Tree.readValue fuel (tokens v ++ rest) = some (readTree v, rest) := by
  match fuel with
  | 0 =>
    obtain ⟨t, ts, htokens, -⟩ := tokens_eq_cons v
    simp [htokens] at hfuel
  | fuel + 1 =>
    match v with
    | null => rfl
    | bool b => rfl
    | number n => rfl
    | string s => rfl
    | array [] => rfl
    | array (v :: vs) =>
      obtain ⟨t, ts, htokens, ht⟩ := tokensOfItems_eq_cons v vs
      have hlength : (tokensOfItems (v :: vs)).length < fuel := by
        simp only [tokens, List.length_cons, List.length_append] at hfuel
        omega
      have hitems : Tree.readItems fuel (tokensOfItems (v :: vs) ++ .closeArray :: rest) =
          some (readTrees (v :: vs), rest) := readItems_tokens v vs hlength
      rw [htokens] at hitems
      rw [tokens, htokens, readTree]
      simp only [List.cons_append, List.append_assoc, List.nil_append] at hitems ⊢
      rw [Tree.readValue, hitems]
      · rfl
      · rintro rest h
        exact ht (List.cons.inj h).1
    | object [] => rfl
    | object ((k, v) :: ms) =>
      have hlength : (tokensOfMembers ((k, v) :: ms)).length < fuel := by
        simp only [tokens, List.length_cons, List.length_append] at hfuel
        omega
      have hmembers : Tree.readMembers fuel
            (tokensOfMembers ((k, v) :: ms) ++ .closeObject :: rest) =
          some (readMemberTrees ((k, v) :: ms), rest) := readMembers_tokens k v ms hlength
      obtain ⟨ts, htokens⟩ : ∃ ts, tokensOfMembers ((k, v) :: ms) = .string (some k) :: ts := by
        cases ms <;> exact ⟨_, rfl⟩
      rw [htokens] at hmembers
      rw [tokens, htokens, readTree]
      simp only [List.cons_append, List.append_assoc, List.nil_append] at hmembers ⊢
      rw [Tree.readValue, hmembers]
      · rfl
      · rintro rest ⟨⟩

theorem readItems_tokens {fuel : Nat} {rest : List Token} (v : Json) (vs : List Json)
    (hfuel : (tokensOfItems (v :: vs)).length < fuel) :
    Tree.readItems fuel (tokensOfItems (v :: vs) ++ .closeArray :: rest) =
      some (readTrees (v :: vs), rest) := by
  match fuel with
  | fuel + 1 =>
    match vs with
    | [] =>
      have hlength : (tokens v).length ≤ fuel := by
        rw [tokensOfItems] at hfuel
        omega
      have hvalue : Tree.readValue fuel (tokens v ++ .closeArray :: rest) =
          some (readTree v, .closeArray :: rest) := readValue_tokens v hlength
      simp [Tree.readItems, tokensOfItems, hvalue, readTrees]
    | w :: vs =>
      rw [tokensOfItems, List.length_append, List.length_cons] at hfuel
      · have hvalue : Tree.readValue fuel
              (tokens v ++ .comma :: (tokensOfItems (w :: vs) ++ .closeArray :: rest)) =
            some (readTree v, .comma :: (tokensOfItems (w :: vs) ++ .closeArray :: rest)) :=
          readValue_tokens v (by omega)
        have hmore : Tree.readItems fuel (tokensOfItems (w :: vs) ++ .closeArray :: rest) =
            some (readTrees (w :: vs), rest) := readItems_tokens w vs (by omega)
        simp [Tree.readItems, tokensOfItems, hvalue, hmore, readTrees]
      · simp

theorem readMembers_tokens {fuel : Nat} {rest : List Token} (k : String) (v : Json)
    (ms : List (String × Json)) (hfuel : (tokensOfMembers ((k, v) :: ms)).length < fuel) :
    Tree.readMembers fuel (tokensOfMembers ((k, v) :: ms) ++ .closeObject :: rest) =
      some (readMemberTrees ((k, v) :: ms), rest) := by
  match fuel with
  | fuel + 1 =>
    match ms with
    | [] =>
      rw [tokensOfMembers, List.length_cons, List.length_cons] at hfuel
      have hvalue : Tree.readValue fuel (tokens v ++ .closeObject :: rest) =
          some (readTree v, .closeObject :: rest) := readValue_tokens v (by omega)
      simp [Tree.readMembers, tokensOfMembers, hvalue, readMemberTrees]
    | (l, w) :: ms =>
      rw [tokensOfMembers, List.length_cons, List.length_cons, List.length_append,
        List.length_cons] at hfuel
      · have hvalue : Tree.readValue fuel
              (tokens v ++ .comma :: (tokensOfMembers ((l, w) :: ms) ++ .closeObject :: rest)) =
            some (readTree v, .comma :: (tokensOfMembers ((l, w) :: ms) ++ .closeObject :: rest)) :=
          readValue_tokens v (by omega)
        have hmore : Tree.readMembers fuel
              (tokensOfMembers ((l, w) :: ms) ++ .closeObject :: rest) =
            some (readMemberTrees ((l, w) :: ms), rest) := readMembers_tokens l w ms (by omega)
        simp [Tree.readMembers, tokensOfMembers, hvalue, hmore, readMemberTrees]
      · simp

end

/-- A text that has the tokens of a value and nothing else is read as its tree. -/
theorem parse_of_scan {v : Json} {text : String} (h : Token.scan text.toList = some (tokens v)) :
    Tree.parse text = some (readTree v) := by
  have hread : Tree.readValue ((tokens v).length + 1) (tokens v ++ []) = some (readTree v, []) :=
    readValue_tokens v (Nat.le_succ _)
  rw [List.append_nil] at hread
  simp [Tree.parse, h, hread]

theorem parse_compact {v : Json} (hv : Proper v) : Tree.parse v.compact = some (readTree v) := by
  apply parse_of_scan
  have hscan : Token.scan (v.compact.toList ++ []) = (Token.scan []).map (tokens v ++ ·) :=
    scan_compact v hv trivial
  simpa [Token.scan_nil] using hscan

theorem parse_pretty {v : Json} (hv : Proper v) : Tree.parse v.pretty = some (readTree v) := by
  apply parse_of_scan
  have hscan : Token.scan ((v.prettyAt 0).toList ++ []) = (Token.scan []).map (tokens v ++ ·) :=
    scan_prettyAt 0 v hv trivial
  simpa [Token.scan_nil, pretty] using hscan

/-! ### Integers alone -/

mutual

/-- Every number in the value is an integer that fits into 64 bits, with its sign or without. -/
def Integral : Json → Prop
  | null => True
  | bool _ => True
  | number (.int n) => -(Decimal.wordBound 63 : Int) ≤ n ∧ n < Decimal.wordBound 64
  | number (.float _) => False
  | string _ => True
  | array items => IntegralItems items
  | object members => IntegralMembers members

def IntegralItems : List Json → Prop
  | [] => True
  | v :: rest => Integral v ∧ IntegralItems rest

def IntegralMembers : List (String × Json) → Prop
  | [] => True
  | (_, v) :: rest => Integral v ∧ IntegralMembers rest

end

mutual

theorem Integral.proper {v : Json} (h : Integral v) : Proper v := by
  match v with
  | null => trivial
  | bool _ => trivial
  | number (.int n) => exact h
  | string _ => trivial
  | array items => exact IntegralItems.proper h
  | object members => exact IntegralMembers.proper h

theorem IntegralItems.proper {vs : List Json} (h : IntegralItems vs) : ProperItems vs := by
  match vs with
  | [] => trivial
  | v :: rest => exact ⟨Integral.proper h.1, IntegralItems.proper h.2⟩

theorem IntegralMembers.proper {ms : List (String × Json)} (h : IntegralMembers ms) :
    ProperMembers ms := by
  match ms with
  | [] => trivial
  | (_, v) :: rest => exact ⟨Integral.proper h.1, IntegralMembers.proper h.2⟩

end

mutual

/-- Without floats a value is read back as the tree it is written as. -/
theorem Integral.readTree_eq {v : Json} (h : Integral v) : readTree v = toTree v := by
  match v with
  | null => rfl
  | bool _ => rfl
  | number (.int n) => rw [readTree, Number.numberOf_int h, toTree]
  | string _ => rfl
  | array items => rw [readTree, IntegralItems.readTrees_eq h, toTree]
  | object members => rw [readTree, IntegralMembers.readMemberTrees_eq h, toTree]

theorem IntegralItems.readTrees_eq {vs : List Json} (h : IntegralItems vs) :
    readTrees vs = treesOf vs := by
  match vs with
  | [] => rfl
  | v :: rest =>
    rw [readTrees, Integral.readTree_eq h.1, IntegralItems.readTrees_eq h.2, treesOf]

theorem IntegralMembers.readMemberTrees_eq {ms : List (String × Json)} (h : IntegralMembers ms) :
    readMemberTrees ms = memberTrees ms := by
  match ms with
  | [] => rfl
  | (k, v) :: rest =>
    rw [readMemberTrees, Integral.readTree_eq h.1, IntegralMembers.readMemberTrees_eq h.2,
      memberTrees]

end

/-! How deep a value is nested. Printed, a value that is not too deep is read as a value. -/

mutual

/-- How many arrays and objects stand inside each other. -/
def levels : Json → Nat
  | array items => levelsOfItems items + 1
  | object members => levelsOfMembers members + 1
  | _ => 0

def levelsOfItems : List Json → Nat
  | [] => 0
  | v :: rest => max (levels v) (levelsOfItems rest)

def levelsOfMembers : List (String × Json) → Nat
  | [] => 0
  | (_, v) :: rest => max (levels v) (levelsOfMembers rest)

end

mutual

/-- A value that is not too deep is read back as some value. -/
theorem exists_ofTree (depth : Nat) (v : Json) (hv : Proper v) (h : levels v ≤ depth) :
    ∃ w, ofTree depth (readTree v) = some w := by
  match v with
  | null => exact ⟨_, rfl⟩
  | bool b => exact ⟨_, rfl⟩
  | number n =>
    obtain ⟨w, hw⟩ := Option.isSome_iff_exists.1 (Number.numberOf_isSome hv)
    exact ⟨number w, by rw [readTree, ofTree, hw]; rfl⟩
  | string s => exact ⟨_, rfl⟩
  | array items =>
    match depth with
    | depth + 1 =>
      obtain ⟨ws, hws⟩ := exists_ofItems depth items hv (Nat.le_of_succ_le_succ h)
      exact ⟨array ws, by simp [readTree, ofTree, hws]⟩
  | object members =>
    match depth with
    | depth + 1 =>
      obtain ⟨ws, hws, -⟩ := exists_ofMembers depth members hv (Nat.le_of_succ_le_succ h)
      exact ⟨object (sortMembers ws), by simp [readTree, ofTree, hws]⟩

theorem exists_ofItems (depth : Nat) (vs : List Json) (hvs : ProperItems vs)
    (h : levelsOfItems vs ≤ depth) : ∃ ws, ofItems depth (readTrees vs) = some ws := by
  match vs with
  | [] => exact ⟨_, rfl⟩
  | v :: rest =>
    obtain ⟨hfirst, hrest⟩ := Nat.max_le.1 h
    obtain ⟨w, hw⟩ := exists_ofTree depth v hvs.1 hfirst
    obtain ⟨ws, hws⟩ := exists_ofItems depth rest hvs.2 hrest
    exact ⟨w :: ws, by rw [readTrees, ofItems, hw, hws]⟩

/-- Members keep their keys and their order, and texts stay what they are. -/
theorem exists_ofMembers (depth : Nat) (ms : List (String × Json)) (hms : ProperMembers ms)
    (h : levelsOfMembers ms ≤ depth) : ∃ ws, ofMembers depth (readMemberTrees ms) = some ws ∧
      ws.map (·.1) = ms.map (·.1) ∧ ∀ k s, (k, string s) ∈ ms → (k, string s) ∈ ws := by
  match ms with
  | [] => exact ⟨_, rfl, rfl, nofun⟩
  | (k, v) :: rest =>
    obtain ⟨hfirst, hrest⟩ := Nat.max_le.1 h
    obtain ⟨w, hw⟩ := exists_ofTree depth v hms.1 hfirst
    obtain ⟨ws, hws, hkeys, htexts⟩ := exists_ofMembers depth rest hms.2 hrest
    refine ⟨(k, w) :: ws, by simp [readMemberTrees, ofMembers, hw, hws], ?_, fun key s hm => ?_⟩
    · rw [List.map_cons, List.map_cons, hkeys]
    · rcases List.mem_cons.1 hm with hsame | hm
      · cases hsame
        cases hw
        exact List.mem_cons_self
      · exact List.mem_cons_of_mem _ (htexts key s hm)

end

/-- What is read from the text of an object has its texts under the same keys. -/
theorem exists_parse {members : List (String × Json)} {text : String}
    (hkeys : (members.map (·.1)).Nodup) (hproper : Proper (object members))
    (hlevels : levels (object members) ≤ maxDepth)
    (htext : Tree.parse text = some (readTree (object members))) :
    ∃ ws, parse text = some (object ws) ∧
      ∀ k s, (k, string s) ∈ members → (object ws).get? k = some (string s) := by
  obtain ⟨ws, hws, hsame, htexts⟩ :=
    exists_ofMembers (maxDepth - 1) members hproper (Nat.le_sub_of_add_le hlevels)
  have hdepth : (maxDepth == 0) = false := rfl
  refine ⟨sortMembers ws, ?_, fun k s hm => get?_sortMembers (hsame ▸ hkeys) (htexts k s hm)⟩
  rw [parse, htext, Option.bind_some, readTree, ofTree, hdepth, hws]
  rfl

end Querent.Json
