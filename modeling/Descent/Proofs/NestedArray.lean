/-
  Descent/Proofs/NestedArray.lean
  ===============================
  **The demo grammar of nested arrays accepts exactly its language.**

  The language is defined by what its phrases are: a value is a run of digits or an
  array, an array holds items between brackets, with one comma more than needed or
  without.

  The grammar is deterministic and touches the journal nowhere, so on each state it
  is one returned state.  Soundness says of that state that it failed or stands
  behind a phrase (`value_sound`, by induction on how much is ahead); completeness
  says that in front of a phrase it is the state behind it (`complete`, by induction
  on the phrase).  The one decision that looks ahead is where a run of digits ends,
  and what may follow an item is no digit.
-/
import Descent.Demo.NestedArray
import Descent.Proofs.Ahead
import Descent.Proofs.Steps

namespace Descent.Demo.NestedArray

/-! ### The language -/

mutual

/-- The characters write a value: a number or an array. -/
inductive IsValue : List Char → Value → Prop where
  | number {cs : List Char} (hne : cs ≠ []) (hdigits : ∀ c ∈ cs, c.isDigit = true) :
      IsValue cs (.int (Numeral.ofDigits cs))
  | array {cs : List Char} {v : Value} (h : IsArray cs v) : IsValue cs v

/-- The characters write an array. -/
inductive IsArray : List Char → Value → Prop where
  | empty : IsArray ['[', ']'] (.list [])
  | items {cs : List Char} {vs : List Value} (h : IsItems cs vs) :
      IsArray ('[' :: (cs ++ [']'])) (.list vs)
  | itemsComma {cs : List Char} {vs : List Value} (h : IsItems cs vs) :
      IsArray ('[' :: (cs ++ [',', ']'])) (.list vs)

/-- The characters write one value or more, with commas between them. -/
inductive IsItems : List Char → List Value → Prop where
  | last {cs : List Char} {v : Value} (h : IsValue cs v) : IsItems cs [v]
  | more {cs ds : List Char} {v : Value} {vs : List Value} (h : IsValue cs v)
      (hs : IsItems ds vs) : IsItems (cs ++ ',' :: ds) (v :: vs)

end

theorem IsArray.eq_cons {cs : List Char} {v : Value} (h : IsArray cs v) :
    ∃ ds, cs = '[' :: ds := by
  cases h with
  | empty => exact ⟨_, rfl⟩
  | items h => exact ⟨_, rfl⟩
  | itemsComma h => exact ⟨_, rfl⟩

/-! ### What the grammar does, node by node -/

/-- The loop over the items of an array, with the items before it latest first. -/
noncomputable def itemsFrom : List Value → State → Run Parser.Harvest :=
  Parser.gatherSeparated (Parser.literal ",") (value.meaning rules)

theorem value_meaning (s : State) :
    value.meaning rules s = Parser.choice [Parser.map (Parser.regex "digits" Pattern.digits)
      fun v => (Grammar.readInteger v).run, array.meaning rules] s := by
  have hrule : (Grammar.rule "array").meaning rules = array.meaning rules :=
    Grammar.meaning_rule_of_some rfl
  simp only [value, Grammar.digits, Grammar.meaning_lazy, Grammar.meaning_choice, List.map,
    Grammar.meaning_map, Grammar.meaning_regex, hrule]
  rfl

theorem array_meaning : array.meaning rules = Parser.map (Parser.sequence [Parser.literal "[",
    Parser.separated (Parser.literal ",") (value.meaning rules), Parser.literal "]"])
      fun v => (Grammar.pick 1 v).run := by
  simp only [array, Grammar.between, Grammar.meaning_named, Grammar.meaning_map,
    Grammar.meaning_sequence, List.map, Grammar.meaning_literal, Grammar.meaning_sepBy]

theorem document_meaning : document.meaning rules =
    Parser.map (Parser.sequence [array.meaning rules, Parser.endOfInput])
      fun v => (Grammar.pick 0 v).run := by
  simp only [document, Grammar.meaning_map, Grammar.meaning_sequence, List.map,
    Grammar.meaning_endOfInput]

variable {s t : State} {cs rest : List Char} {j : Journal}

/-- In front of a digit a value is the number that the run of digits writes. -/
theorem value_number (hs : s.isError = false) (hcs : s.ahead.takeWhile Char.isDigit = cs)
    (hne : cs ≠ []) (j : Journal) :
    value.meaning rules s j
      = .returned (s.advance (s.cursor + cs.length) (.int (Numeral.ofDigits cs))) j := by
  have hdigits : ∀ c ∈ cs, c.isDigit = true := by
    rw [← hcs]
    exact List.all_eq_true.mp List.all_takeWhile
  have hrun : Parser.regex "digits" Pattern.digits s j
      = .returned (s.advance (s.cursor + cs.length) (.str (String.ofList cs))) j :=
    congrFun (Parser.digits_here hs hcs hne) j
  have hread : (Grammar.readInteger (.str (String.ofList cs))).run j
      = .returned (.int (Numeral.ofDigits cs)) j := by
    rw [Grammar.readInteger_digits hne hdigits]
    rfl
  rw [value_meaning, Parser.choice_eq hs]
  exact Parser.choiceFrom_ok (Parser.map_ok hrun hs hread) hs

/-- In front of anything else a value is an array, or it fails as the array does. -/
theorem value_array (hs : s.isError = false) (hcs : s.ahead.takeWhile Char.isDigit = [])
    (ht : array.meaning rules s j = .returned t j) :
    ∃ u, value.meaning rules s j = .returned u j ∧
      (u = t ∨ u.isError = true ∧ t.isError = true) := by
  obtain ⟨message, hrun⟩ := Parser.digits_missing hs hcs
  have hnumber := Parser.map_failed (f := fun v => (Grammar.readInteger v).run)
    (congrFun hrun j) rfl
  rw [value_meaning, Parser.choice_eq hs, Parser.choiceFrom_failed hnumber rfl]
  cases hcase : t.isError with
  | true =>
    rw [Parser.choiceFrom_failed ht hcase]
    exact ⟨_, rfl, .inr ⟨rfl, rfl⟩⟩
  | false => exact ⟨t, Parser.choiceFrom_ok ht hcase, .inl rfl⟩

theorem array_elsewhere (hs : s.isError = false) (h : ∀ rest, s.ahead ≠ '[' :: rest)
    (j : Journal) : ∃ message, array.meaning rules s j
      = .returned (s.fail (ErrorKind.literalMismatch.orEnd s.ahead) message) j := by
  have hnot : ¬"[".toList <+: s.ahead := fun ⟨rest, hrest⟩ => h rest hrest.symm
  obtain ⟨message, ht⟩ := Parser.literal_missing hs hnot
  refine ⟨message, ?_⟩
  rw [array_meaning]
  refine Parser.map_failed ?_ rfl
  rw [Parser.sequence_eq hs]
  exact Parser.sequenceFrom_failed (congrFun ht j) rfl

/-- Behind the opening bracket come the items, and then the closing one or nothing. -/
theorem array_open (hs : s.isError = false) (h : s.ahead = '[' :: rest)
    {harvest : Parser.Harvest} (hok : harvest.state.isError = false)
    (hitems : itemsFrom [] (s.advance (s.cursor + 1) (.str "[")) j = .returned harvest j) :
    (∀ rest', harvest.state.ahead = ']' :: rest' → array.meaning rules s j = .returned
        (harvest.state.advance (harvest.state.cursor + 1) (.list harvest.results)) j) ∧
    ((∀ rest', harvest.state.ahead ≠ ']' :: rest') → ∃ message, array.meaning rules s j
      = .returned ((harvest.state.withResult (.list harvest.results)).fail
          (ErrorKind.literalMismatch.orEnd harvest.state.ahead) message) j) := by
  have hopen : Parser.literal "[" s j = .returned (s.advance (s.cursor + 1) (.str "[")) j :=
    congrFun (Parser.literal_here (by decide) hs h) j
  have hlist := Parser.separated_of_gather (s := s.advance (s.cursor + 1) (.str "[")) hs hitems
  have hlast : (harvest.state.withResult (.list harvest.results)).isError = false := hok
  have hsequence : Parser.sequence [Parser.literal "[",
      Parser.separated (Parser.literal ",") (value.meaning rules), Parser.literal "]"] s j
      = Parser.sequenceFrom [Parser.literal "]"] [.list harvest.results, .str "["]
          (harvest.state.withResult (.list harvest.results)) j := by
    rw [Parser.sequence_eq hs, Parser.sequenceFrom_ok hopen hs, Parser.sequenceFrom_ok hlist hok]
    rfl
  rw [array_meaning]
  constructor
  · intro rest' hrest
    have hclose := congrFun
      (Parser.literal_here (by decide : "]" ≠ "") hlast (hrest : _ = "]".toList ++ rest')) j
    have hparts := hsequence.trans (Parser.sequenceFrom_ok hclose hok)
    exact Parser.map_ok (f := fun v => (Grammar.pick 1 v).run) hparts hok rfl
  · intro hrest
    have hnot : ¬"]".toList <+: (harvest.state.withResult (.list harvest.results)).ahead :=
      fun ⟨rest', hrest'⟩ => hrest rest' hrest'.symm
    obtain ⟨message, ht⟩ := Parser.literal_missing hlast hnot
    have hparts := hsequence.trans (Parser.sequenceFrom_failed (congrFun ht j) rfl)
    exact ⟨message, Parser.map_failed hparts rfl⟩

/-! ### Soundness -/

/-- What may stand between the brackets: nothing, items, or items and a comma. -/
inductive IsContent : List Char → List Value → Prop where
  | nothing : IsContent [] []
  | items {cs : List Char} {vs : List Value} (h : IsItems cs vs) : IsContent cs vs
  | itemsComma {cs : List Char} {vs : List Value} (h : IsItems cs vs) :
      IsContent (cs ++ [',']) vs

theorem IsContent.isArray {vs : List Value} (h : IsContent cs vs) :
    IsArray ('[' :: (cs ++ [']'])) (.list vs) := by
  cases h with
  | nothing => exact .empty
  | items h => exact .items h
  | itemsComma h =>
    rw [List.append_assoc]
    exact .itemsComma h

theorem IsContent.cons {ds : List Char} {v : Value} {vs : List Value} (hv : IsValue cs v)
    (h : IsContent ds vs) : IsContent (cs ++ ',' :: ds) (v :: vs) := by
  cases h with
  | nothing => exact .itemsComma (.last hv)
  | items h => exact .items (.more hv h)
  | itemsComma h =>
    rw [← List.cons_append, ← List.append_assoc]
    exact .itemsComma (.more hv h)

/-- The state `t` failed, or it stands behind a phrase that starts at `s`. -/
def Found (language : List Char → Value → Prop) (s t : State) : Prop :=
  t.isError = true ∨ ∃ cs v rest, language cs v ∧ s.ahead = cs ++ rest ∧
    t = s.advance (s.cursor + cs.length) v

/-- A value and a comma behind it: the loop goes on behind the comma. -/
theorem items_next (hs : s.isError = false) {v : Value} (hahead : s.ahead = cs ++ ',' :: rest)
    (hvalue : value.meaning rules s j = .returned (s.advance (s.cursor + cs.length) v) j)
    (results : List Value) :
    ∃ u, s.Behind (cs.length + 1) rest u ∧
      itemsFrom results s j = itemsFrom (v :: results) u j := by
  have hbehind := State.Behind.advance_run hs hahead v
  have hcomma : Parser.literal "," (s.advance (s.cursor + cs.length) v) j
      = .returned (s.advance (s.cursor + cs.length + 1) (.str ",")) j :=
    congrFun (Parser.literal_here (by decide) hbehind.ok hbehind.ahead) j
  have hmoved : s.cursor + cs.length + 1 ≠ s.cursor := by omega
  refine ⟨s.advance (s.cursor + cs.length + 1) (.str ","), hbehind.advance_one (.str ","), ?_⟩
  exact Parser.gatherSeparated_ok hvalue hs hcomma hs hmoved

/-- A value and no comma behind it: the loop ends behind the value. -/
theorem items_last (hs : s.isError = false) {v : Value} (hahead : s.ahead = cs ++ rest)
    (hnone : ¬∃ rest', rest = ',' :: rest')
    (hvalue : value.meaning rules s j = .returned (s.advance (s.cursor + cs.length) v) j)
    (results : List Value) :
    itemsFrom results s j
      = .returned ⟨results.reverse ++ [v], s.advance (s.cursor + cs.length) v⟩ j := by
  have hok : (s.advance (s.cursor + cs.length) v).isError = false := hs
  have hnot : ¬",".toList <+: (s.advance (s.cursor + cs.length) v).ahead := by
    rw [State.ahead_advance hahead v]
    exact fun ⟨rest', hrest'⟩ => hnone ⟨rest', hrest'.symm⟩
  obtain ⟨kind, message, hcomma⟩ := Parser.literal_elsewhere hok hnot
  refine (Parser.gatherSeparated_last hvalue hs (congrFun hcomma j) rfl).trans ?_
  rw [List.reverse_cons]
  rfl

/-- The loop over the items finds what may stand between the brackets, if a value
    finds a value wherever the loop may apply it. -/
theorem items_sound {bound : Nat}
    (hvalue : ∀ s : State, s.isError = false → s.ahead.length ≤ bound →
      ∃ t, value.meaning rules s j = .returned t j ∧ Found IsValue s t)
    (s : State) (hs : s.isError = false) (hbound : s.ahead.length ≤ bound)
    (results : List Value) :
    ∃ cs vs rest w, IsContent cs vs ∧ s.ahead = cs ++ rest ∧ itemsFrom results s j
      = .returned ⟨results.reverse ++ vs, s.advance (s.cursor + cs.length) w⟩ j := by
  induction hlength : s.ahead.length using Nat.strongRecOn generalizing s results with
  | ind length ih =>
  obtain ⟨t, ht, hfailed | ⟨cs, v, rest, hv, hahead, rfl⟩⟩ := hvalue s hs hbound
  · refine ⟨[], [], s.ahead, s.result, .nothing, rfl, ?_⟩
    rw [itemsFrom, Parser.gatherSeparated_failed ht hfailed, List.append_nil]
    rfl
  by_cases hcomma : ∃ rest', rest = ',' :: rest'
  · obtain ⟨rest, rfl⟩ := hcomma
    obtain ⟨u, hu, hnext⟩ := items_next hs hahead ht results
    have hshorter : u.ahead.length < length := by
      rw [← hlength, hahead, hu.ahead]
      simp only [List.length_append, List.length_cons]
      omega
    obtain ⟨ds, vs, rest', w, hcontent, hds, hloop⟩ :=
      ih u.ahead.length hshorter u hu.ok (by omega) (v :: results) rfl
    refine ⟨cs ++ ',' :: ds, v :: vs, rest', w, hcontent.cons hv, ?_, ?_⟩
    · rw [hahead, List.append_assoc, List.cons_append, ← hds, hu.ahead]
    · have hcursor : u.cursor + ds.length = s.cursor + (cs ++ ',' :: ds).length := by
        rw [hu.cursor, List.length_append, List.length_cons]
        omega
      rw [hu.advance, hcursor, List.reverse_cons, List.append_assoc] at hloop
      exact hnext.trans hloop
  · exact ⟨cs, [v], rest, v, .items (.last hv), hahead, items_last hs hahead hcomma ht results⟩

/-- An array finds an array, if a value finds a value wherever less is ahead. -/
theorem array_sound (hs : s.isError = false)
    (hvalue : ∀ t : State, t.isError = false → t.ahead.length < s.ahead.length →
      ∃ u, value.meaning rules t j = .returned u j ∧ Found IsValue t u) :
    ∃ t, array.meaning rules s j = .returned t j ∧ Found IsArray s t := by
  by_cases hopen : ∃ rest, s.ahead = '[' :: rest
  · obtain ⟨rest, hrest⟩ := hopen
    have hbehind : (s.advance (s.cursor + 1) (.str "[")).ahead = rest :=
      State.ahead_advance_one hrest _
    have hlength : s.ahead.length = rest.length + 1 := by rw [hrest, List.length_cons]
    have hinside : ∀ t : State, t.isError = false → t.ahead.length ≤ rest.length →
        ∃ u, value.meaning rules t j = .returned u j ∧ Found IsValue t u :=
      fun t ht hle => hvalue t ht (by omega)
    obtain ⟨cs, vs, rest', w, hcontent, hahead, hloop⟩ := items_sound hinside
      (s.advance (s.cursor + 1) (.str "[")) hs (Nat.le_of_eq (congrArg List.length hbehind)) []
    have harray := array_open hs hrest (by exact hs) hloop
    rw [State.ahead_advance hahead] at harray
    by_cases hclose : ∃ rest'', rest' = ']' :: rest''
    · obtain ⟨rest'', rfl⟩ := hclose
      refine ⟨_, harray.1 rest'' rfl, .inr ⟨_, _, rest'', hcontent.isArray, ?_, ?_⟩⟩
      · rw [hrest, ← hbehind, hahead]
        simp
      · simp [State.advance]
        omega
    · obtain ⟨message, ht⟩ := harray.2 fun rest'' h => hclose ⟨rest'', h⟩
      exact ⟨_, ht, .inl rfl⟩
  · obtain ⟨message, ht⟩ := array_elsewhere hs (fun rest h => hopen ⟨rest, h⟩) j
    exact ⟨_, ht, .inl rfl⟩

theorem value_sound (hs : s.isError = false) :
    ∃ t, value.meaning rules s j = .returned t j ∧ Found IsValue s t := by
  induction hlength : s.ahead.length using Nat.strongRecOn generalizing s with
  | ind length ih =>
  by_cases hdigit : s.ahead.takeWhile Char.isDigit = []
  · obtain ⟨t, ht, hfound⟩ := array_sound (j := j) hs fun t ht hlt => ih _ (by omega) ht rfl
    obtain ⟨u, hu, hcases⟩ := value_array hs hdigit ht
    refine ⟨u, hu, ?_⟩
    rcases hcases with rfl | ⟨hfailed, -⟩
    · rcases hfound with hfailed | ⟨cs, v, rest, harray, hrest⟩
      · exact .inl hfailed
      · exact .inr ⟨cs, v, rest, .array harray, hrest⟩
    · exact .inl hfailed
  · refine ⟨_, value_number hs rfl hdigit j, .inr ⟨_, _, s.ahead.dropWhile Char.isDigit, ?_, ?_, rfl⟩⟩
    · exact .number hdigit (List.all_eq_true.mp List.all_takeWhile)
    · exact List.takeWhile_append_dropWhile.symm

/-! ### Completeness -/

/-- No digit comes next. -/
def NoDigit (rest : List Char) : Prop := rest.takeWhile Char.isDigit = []

/-- In front of the characters, a value stands behind them and has the result. -/
def ValueComplete (j : Journal) (cs : List Char) (v : Value) : Prop :=
  ∀ (s : State) (rest : List Char), s.isError = false → s.ahead = cs ++ rest → NoDigit rest →
    value.meaning rules s j = .returned (s.advance (s.cursor + cs.length) v) j

def ArrayComplete (j : Journal) (cs : List Char) (v : Value) : Prop :=
  ∀ (s : State) (rest : List Char), s.isError = false → s.ahead = cs ++ rest →
    array.meaning rules s j = .returned (s.advance (s.cursor + cs.length) v) j

/-- In front of items, perhaps a comma and a closing bracket, the loop stops at the
    bracket. -/
def ItemsComplete (j : Journal) (cs : List Char) (vs : List Value) : Prop :=
  ∀ (s : State) (comma rest : List Char) (results : List Value), s.isError = false →
    comma = [] ∨ comma = [','] → s.ahead = cs ++ (comma ++ ']' :: rest) →
      ∃ w, itemsFrom results s j = .returned
        ⟨results.reverse ++ vs, s.advance (s.cursor + (cs ++ comma).length) w⟩ j

theorem takeWhile_digits {rest : List Char} (hdigits : ∀ c ∈ cs, c.isDigit = true)
    (hrest : NoDigit rest) : (cs ++ rest).takeWhile Char.isDigit = cs := by
  rw [List.takeWhile_append_of_pos hdigits, hrest, List.append_nil]

theorem value_at_close (hs : s.isError = false) (h : s.ahead = ']' :: rest) (j : Journal) :
    ∃ t, value.meaning rules s j = .returned t j ∧ t.isError = true := by
  have hopen : ∀ rest', s.ahead ≠ '[' :: rest' := by
    intro rest' hrest'
    rw [h] at hrest'
    exact absurd (List.cons.inj hrest').1 (by decide)
  have hdigit : s.ahead.takeWhile Char.isDigit = [] := by
    rw [h]
    rfl
  obtain ⟨message, ht⟩ := array_elsewhere hs hopen j
  obtain ⟨u, hu, rfl | ⟨hu', -⟩⟩ := value_array hs hdigit ht
  · exact ⟨_, hu, rfl⟩
  · exact ⟨u, hu, hu'⟩

theorem array_complete_of_content {vs : List Value} {content : List Char}
    (hitems : ∀ (s : State) (rest : List Char), s.isError = false →
      s.ahead = content ++ ']' :: rest → ∃ w, itemsFrom [] s j
        = .returned { results := vs, state := s.advance (s.cursor + content.length) w } j) :
    ArrayComplete j ('[' :: (content ++ [']'])) (.list vs) := by
  intro s rest hs hahead
  have hopen : s.ahead = '[' :: (content ++ ']' :: rest) := by simp [hahead]
  have hbehind : (s.advance (s.cursor + 1) (.str "[")).ahead = content ++ ']' :: rest :=
    State.ahead_advance_one hopen _
  obtain ⟨w, hloop⟩ := hitems (s.advance (s.cursor + 1) (.str "[")) rest hs hbehind
  have harray := (array_open hs hopen (by exact hs) hloop).1 rest (State.ahead_advance hbehind w)
  rw [harray]
  simp [State.advance]
  omega

/-- In front of an array a value is the array, whatever comes behind it. -/
theorem value_of_array {v : Value} (h : IsArray cs v) (harray : ArrayComplete j cs v)
    (hs : s.isError = false) (hahead : s.ahead = cs ++ rest) :
    value.meaning rules s j = .returned (s.advance (s.cursor + cs.length) v) j := by
  have hdigit : s.ahead.takeWhile Char.isDigit = [] := by
    obtain ⟨ds, rfl⟩ := h.eq_cons
    rw [hahead]
    rfl
  obtain ⟨u, hu, rfl | ⟨-, hfailed⟩⟩ := value_array hs hdigit (harray s rest hs hahead)
  · exact hu
  · exact absurd (hs.symm.trans hfailed) (by decide)

mutual

theorem value_complete {cs : List Char} {v : Value} (h : IsValue cs v) : ValueComplete j cs v := by
  intro s rest hs hahead hrest
  cases h with
  | number hne hdigits =>
    have hcs : s.ahead.takeWhile Char.isDigit = cs := by
      rw [hahead, takeWhile_digits hdigits hrest]
    exact value_number hs hcs hne j
  | array h => exact value_of_array h (array_complete h) hs hahead

theorem array_complete {cs : List Char} {v : Value} (h : IsArray cs v) : ArrayComplete j cs v := by
  cases h with
  | empty =>
    change ArrayComplete j ('[' :: ([] ++ [']'])) (.list [])
    refine array_complete_of_content fun s rest hs hahead => ?_
    obtain ⟨t, ht, hfailed⟩ := value_at_close hs hahead j
    exact ⟨s.result, Parser.gatherSeparated_failed ht hfailed⟩
  | items h =>
    refine array_complete_of_content fun s rest hs hahead => ?_
    have hloop := items_complete h s [] rest [] hs (.inl rfl) hahead
    rwa [List.append_nil] at hloop
  | @itemsComma cs vs h =>
    have hcontent : ArrayComplete j ('[' :: ((cs ++ [',']) ++ [']'])) (.list vs) :=
      array_complete_of_content fun s rest hs hahead =>
        items_complete h s [','] rest [] hs (.inr rfl) (by rw [hahead, List.append_assoc])
    rwa [List.append_assoc] at hcontent

theorem items_complete {cs : List Char} {vs : List Value} (h : IsItems cs vs) :
    ItemsComplete j cs vs := by
  intro s comma rest results hs hcomma hahead
  cases h with
  | @last _ v h =>
    have hstop : NoDigit (comma ++ ']' :: rest) := by
      rcases hcomma with rfl | rfl <;> rfl
    have hvalue := value_complete h s _ hs hahead hstop
    rcases hcomma with rfl | rfl
    · have hnone : ¬∃ rest', ']' :: rest = ',' :: rest' := fun ⟨rest', hrest'⟩ =>
        absurd (List.cons.inj hrest').1 (by decide)
      refine ⟨v, ?_⟩
      rw [List.append_nil]
      exact items_last hs hahead hnone hvalue results
    · obtain ⟨u, hu, hnext⟩ := items_next hs hahead hvalue results
      obtain ⟨t, ht, hfailed⟩ := value_at_close hu.ok hu.ahead j
      refine ⟨u.result, hnext.trans ((Parser.gatherSeparated_failed ht hfailed).trans ?_)⟩
      rw [List.length_append, List.length_singleton, ← hu.advance, ← hu.cursor, List.reverse_cons]
      rfl
  | @more cs ds v vs h htail =>
    have hsplit : s.ahead = cs ++ ',' :: (ds ++ (comma ++ ']' :: rest)) := by
      rw [hahead, List.append_assoc]
      rfl
    have hvalue := value_complete h s _ hs hsplit rfl
    obtain ⟨u, hu, hnext⟩ := items_next hs hsplit hvalue results
    obtain ⟨w, hloop⟩ := items_complete htail u comma rest (v :: results) hu.ok hcomma hu.ahead
    have hcursor : u.cursor + (ds ++ comma).length
        = s.cursor + ((cs ++ ',' :: ds) ++ comma).length := by
      rw [hu.cursor]
      simp only [List.length_append, List.length_cons]
      omega
    rw [hu.advance, hcursor, List.reverse_cons, List.append_assoc] at hloop
    exact ⟨w, hnext.trans hloop⟩

end

/-! ### The document -/

/-- Where the array fails the document fails as it does. -/
theorem document_failed (hs : s.isError = false) (ht : array.meaning rules s j = .returned t j)
    (hfailed : t.isError = true) : document.meaning rules s j = .returned t j := by
  rw [document_meaning]
  refine Parser.map_failed ?_ hfailed
  rw [Parser.sequence_eq hs]
  exact Parser.sequenceFrom_failed ht hfailed

/-- Where something is left behind the array the document fails behind the array. -/
theorem document_left (hs : s.isError = false) (ht : array.meaning rules s j = .returned t j)
    (hok : t.isError = false) (hleft : t.ahead ≠ []) :
    ∃ message, document.meaning rules s j = .returned (t.fail .message message) j := by
  obtain ⟨message, hend⟩ := Parser.endOfInput_left hok hleft
  refine ⟨message, ?_⟩
  rw [document_meaning]
  refine Parser.map_failed ?_ rfl
  rw [Parser.sequence_eq hs, Parser.sequenceFrom_ok ht hok]
  exact Parser.sequenceFrom_failed (congrFun hend j) rfl

/-- Where nothing is left behind the array the document is the array. -/
theorem document_whole (hs : s.isError = false) (ht : array.meaning rules s j = .returned t j)
    (hok : t.isError = false) (hnothing : t.ahead = []) :
    document.meaning rules s j = .returned t j := by
  have hend := congrFun (Parser.endOfInput_here hok hnothing) j
  have hparts : Parser.sequence [array.meaning rules, Parser.endOfInput] s j
      = .returned (t.withResult (.list [t.result, .null])) j := by
    rw [Parser.sequence_eq hs, Parser.sequenceFrom_ok ht hok]
    exact Parser.sequenceFrom_ok hend hok
  have hpick := Parser.map_ok (f := fun v => (Grammar.pick 0 v).run) hparts hok rfl
  rw [document_meaning]
  exact hpick

/-- The document either fails, and then the text is no array, or it succeeds behind
    the whole text, which then writes the result. -/
theorem document_answer (text : Text) (j : Journal) :
    ∃ u, document.meaning rules (State.initial text) j = .returned u j ∧
      ((u.isError = true ∧ ∀ v, ¬IsArray text.toList v) ∨
        (u.isError = false ∧ u.cursor = text.size ∧ ∀ v, IsArray text.toList v ↔ u.result = v)) := by
  obtain ⟨t, ht, hfound⟩ := array_sound (j := j) (s := State.initial text) rfl
    fun t ht _ => value_sound ht
  have hcomplete : ∀ v, IsArray text.toList v → t = (State.initial text).advance text.size v := by
    intro v hv
    have h := array_complete (j := j) hv (State.initial text) [] rfl (by simp)
    rw [ht, Text.length_toList] at h
    simpa [State.initial] using (Outcome.returned.inj h).1
  rcases hfound with hfailed | ⟨cs, v, rest, hv, hahead, rfl⟩
  · refine ⟨t, document_failed rfl ht hfailed, .inl ⟨hfailed, fun v hv => ?_⟩⟩
    rw [hcomplete v hv] at hfailed
    cases hfailed
  have hbehind := State.ahead_advance hahead v
  rw [State.ahead_initial] at hahead
  by_cases hrest : rest = []
  · rw [hrest, List.append_nil] at hahead
    have hwhole := document_whole rfl ht rfl (hbehind.trans hrest)
    refine ⟨_, hwhole, .inr ⟨rfl, ?_, fun w => ⟨fun hw => ?_, fun hw => ?_⟩⟩⟩
    · rw [← Text.length_toList, hahead]
      exact Nat.zero_add cs.length
    · rw [hcomplete w hw]
      rfl
    · rw [hahead, ← hw]
      exact hv
  · obtain ⟨message, hleft⟩ := document_left rfl ht rfl (by rwa [hbehind])
    refine ⟨_, hleft, .inl ⟨rfl, fun w hw => hrest ?_⟩⟩
    rw [← hbehind, hcomplete w hw]
    simp [State.ahead, State.advance, State.initial]

end Descent.Demo.NestedArray
