/-
  Descent/Proofs/RoundTrip.lean
  =============================
  **A list of numbers is read back from what it is written as.**

  Numbers are written one behind the other, with a separator between them, and anything
  may follow that does not go on with the list.  Then `sepBy` of the separator and
  `digits` yields the numbers, and ends behind the last one
  (`Grammar.separated_numbers_round_trip`).  One thing is not given back: a separator that
  happens to follow the last number is consumed, too.

  A number is read as far as it goes, so two things have to be known of what stands behind
  it: that it is not a digit, and whether it is the separator.  A separator that begins
  without a digit answers both between two numbers.  Behind the last one it is what
  follows that answers them, and the induction on the numbers ends with a separator in
  full, with a part of one, or with none.
-/
import Descent.Proofs.Ahead
import Descent.Proofs.Steps

namespace Descent

/-! ### Written lists -/

/-- Whether a digit comes first. -/
def startsWithDigit : List Char → Bool
  | [] => false
  | c :: _ => c.isDigit

/-- The text is made of digits, one at least. -/
structure IsNumber (d : String) : Prop where
  ne : d ≠ ""
  digits : d.toList.all Char.isDigit = true

/-- The text can stand behind a number without being taken for a part of it. -/
structure IsSeparator (sep : String) : Prop where
  ne : sep ≠ ""
  noDigit : startsWithDigit sep.toList = false

/-- The text does not go on with a list, neither with its last number nor with another one
    behind a separator. -/
structure EndsList (sep rest : String) : Prop where
  noDigit : startsWithDigit rest.toList = false
  noNumber : ∀ more, rest.toList = sep.toList ++ more → startsWithDigit more = false

/-- The numbers with the separator between them, and what follows. -/
def listText (sep : String) (ds : List String) (rest : String) : Text :=
  Text.ofString (sep.intercalate ds ++ rest)

/-- Where the list ends: behind its last number, but behind a separator if one follows. -/
def listEnd (sep : String) (ds : List String) (rest : String) : Nat :=
  if ds ≠ [] ∧ sep.toList <+: rest.toList then (sep.intercalate ds).length + sep.length
  else (sep.intercalate ds).length

variable {sep d rest : String} {ds : List String} {more : List Char}

theorem takeWhile_isDigit_eq_nil {cs : List Char} (h : startsWithDigit cs = false) :
    cs.takeWhile Char.isDigit = [] := by
  cases cs with
  | nil => rfl
  | cons c cs =>
    rw [startsWithDigit] at h
    rw [List.takeWhile_cons, h, if_neg Bool.false_ne_true]

/-- It is the separator that comes first. -/
theorem IsSeparator.noDigit_append (hsep : IsSeparator sep) (more : List Char) :
    startsWithDigit (sep.toList ++ more) = false := by
  have hfirst := hsep.noDigit
  cases hchars : sep.toList with
  | nil => exact absurd (String.toList_eq_nil_iff.mp hchars) hsep.ne
  | cons c cs =>
    rw [hchars] at hfirst
    exact hfirst

theorem toList_intercalate_cons (sep d d' : String) (ds : List String) (more : List Char) :
    (sep.intercalate (d :: d' :: ds)).toList ++ more
      = d.toList ++ (sep.toList ++ ((sep.intercalate (d' :: ds)).toList ++ more)) := by
  rw [String.intercalate_cons_cons, String.toList_append, String.toList_append, List.append_assoc,
    List.append_assoc]

/-- One number more in front moves the end by it and a separator. -/
theorem listEnd_cons (sep d d' : String) (ds : List String) (rest : String) :
    listEnd sep (d :: d' :: ds) rest = d.length + sep.length + listEnd sep (d' :: ds) rest := by
  simp only [listEnd, String.intercalate_cons_cons, String.length_append, ne_eq, reduceCtorEq,
    not_false_eq_true, true_and]
  split
  · omega
  · omega

namespace Parser

variable {s : State} {results : List Value} {j : Journal}

/-! ### Rounds -/

/-- The loop over the numbers, with the numbers before it latest first. -/
noncomputable def numbersFrom (sep : String) : List Value → State → Run Harvest :=
  gatherSeparated (literal sep) (regex "digits" Pattern.digits)

theorem digits_number (hd : IsNumber d) (hmore : startsWithDigit more = false)
    (hs : s.isError = false) (h : s.ahead = d.toList ++ more) (j : Journal) :
    regex "digits" Pattern.digits s j
      = .returned (s.advance (s.cursor + d.length) (.str d)) j := by
  have hrun : s.ahead.takeWhile Char.isDigit = d.toList := by
    rw [h, List.takeWhile_append_of_pos (List.all_eq_true.mp hd.digits),
      takeWhile_isDigit_eq_nil hmore, List.append_nil]
  have hne : d.toList ≠ [] := fun hnil => hd.ne (String.toList_eq_nil_iff.mp hnil)
  have hdigits := digits_here hs hrun hne
  rw [String.length_toList, String.ofList_toList] at hdigits
  exact congrFun hdigits j

/-- Where no digit comes first, the loop ends. -/
theorem numbersFrom_noDigit (h : startsWithDigit s.ahead = false) (hs : s.isError = false)
    (results : List Value) (j : Journal) :
    numbersFrom sep results s j = .returned { results := results.reverse, state := s } j := by
  obtain ⟨message, hmissing⟩ := digits_missing hs (takeWhile_isDigit_eq_nil h)
  exact gatherSeparated_failed (congrFun hmissing j) rfl

/-- A number and a separator behind it: the loop goes on behind the separator. -/
theorem numbersFrom_next (hsep : IsSeparator sep) (hd : IsNumber d) (hs : s.isError = false)
    (h : s.ahead = d.toList ++ (sep.toList ++ more)) (results : List Value) (j : Journal) :
    ∃ u, s.Behind (d.length + sep.length) more u ∧
      numbersFrom sep results s j = numbersFrom sep (.str d :: results) u j := by
  have hnumber := digits_number hd (hsep.noDigit_append more) hs h j
  have hbehind := State.Behind.advance_run hs h (.str d)
  rw [String.length_toList] at hbehind
  have hliteral := congrFun (literal_here hsep.ne hbehind.ok hbehind.ahead) j
  have hpositive : 0 < sep.length :=
    Nat.pos_of_ne_zero fun hzero => hsep.ne (String.length_eq_zero_iff.mp hzero)
  have hfurther := hbehind.advance_further (.str sep)
  rw [String.length_toList] at hfurther
  refine ⟨_, hfurther, gatherSeparated_ok hnumber hs hliteral hs ?_⟩
  change s.cursor + d.length + sep.length ≠ s.cursor
  omega

/-- A number and no separator behind it: the loop ends behind the number. -/
theorem numbersFrom_last (hd : IsNumber d) (hmore : startsWithDigit more = false)
    (hnone : ¬sep.toList <+: more) (hs : s.isError = false) (h : s.ahead = d.toList ++ more)
    (results : List Value) (j : Journal) :
    numbersFrom sep results s j = .returned
      { results := results.reverse ++ [.str d],
        state := s.advance (s.cursor + d.length) (.str d) } j := by
  have hnumber := digits_number hd hmore hs h j
  have hbehind := State.Behind.advance_run hs h (.str d)
  rw [String.length_toList] at hbehind
  obtain ⟨message, hmissing⟩ := literal_missing hbehind.ok (hbehind.ahead ▸ hnone)
  rw [← List.reverse_cons]
  exact gatherSeparated_last hnumber hs (congrFun hmissing j) rfl

/-! ### All rounds -/

/-- **In front of a list of numbers the loop gathers the numbers.**  It ends behind the last
    one, and behind a separator if one follows. -/
theorem numbersFrom_list (hsep : IsSeparator sep) (hrest : EndsList sep rest) {ds : List String}
    (hds : ∀ d' ∈ d :: ds, IsNumber d') (hs : s.isError = false)
    (h : s.ahead = (sep.intercalate (d :: ds)).toList ++ rest.toList) (results : List Value)
    (j : Journal) :
    ∃ v, numbersFrom sep results s j = .returned
      { results := results.reverse ++ (d :: ds).map .str,
        state := s.advance (s.cursor + listEnd sep (d :: ds) rest) v } j := by
  have hd : IsNumber d := hds d List.mem_cons_self
  induction ds generalizing d s results with
  | nil =>
    rw [String.intercalate_singleton] at h
    by_cases hfollows : sep.toList <+: rest.toList
    · obtain ⟨more, hmore⟩ := hfollows
      rw [← hmore] at h
      obtain ⟨u, hu, hnext⟩ := numbersFrom_next hsep hd hs h results j
      have hstop : startsWithDigit u.ahead = false := by
        rw [hu.ahead]
        exact hrest.noNumber more hmore.symm
      have hend : s.cursor + listEnd sep [d] rest = u.cursor := by
        simp [listEnd, ← hmore, hu.cursor]
      refine ⟨u.result, ?_⟩
      rw [hnext, numbersFrom_noDigit hstop hu.ok, hend, ← hu.advance]
      simp [State.advance]
    · have hend : listEnd sep [d] rest = d.length := by simp [listEnd, hfollows]
      refine ⟨.str d, ?_⟩
      rw [numbersFrom_last hd hrest.noDigit hfollows hs h results j, hend]
      rfl
  | cons d' ds ih =>
    rw [toList_intercalate_cons] at h
    obtain ⟨u, hu, hnext⟩ := numbersFrom_next hsep hd hs h results j
    have htail : ∀ e ∈ d' :: ds, IsNumber e := fun e he => hds e (List.mem_cons_of_mem d he)
    obtain ⟨v, hloop⟩ := ih htail hu.ok hu.ahead (.str d :: results) (htail d' List.mem_cons_self)
    have hend : u.cursor + listEnd sep (d' :: ds) rest
        = s.cursor + listEnd sep (d :: d' :: ds) rest := by
      rw [hu.cursor, listEnd_cons]
      omega
    refine ⟨v, ?_⟩
    rw [hnext, hloop, hu.advance, hend]
    simp

end Parser

namespace Grammar

/-- The state behind the list, with its numbers. -/
def listState (sep : String) (ds : List String) (rest : String) : State :=
  (State.initial (listText sep ds rest)).advance (listEnd sep ds rest) (.list (ds.map .str))

/-- At the beginning of the text the loop gathers all numbers. -/
theorem numbersFrom_listText (hsep : IsSeparator sep) (hds : ∀ d ∈ ds, IsNumber d)
    (hrest : EndsList sep rest) (j : Journal) :
    ∃ state, Parser.numbersFrom sep [] (State.initial (listText sep ds rest)) j
        = .returned { results := ds.map .str, state } j ∧
      state.withResult (.list (ds.map .str)) = listState sep ds rest := by
  have hahead : (State.initial (listText sep ds rest)).ahead
      = (sep.intercalate ds).toList ++ rest.toList := by
    rw [State.ahead_initial, listText, Text.toList_ofString, String.toList_append]
  cases ds with
  | nil =>
    have hstop : startsWithDigit (State.initial (listText sep [] rest)).ahead = false := by
      rw [hahead]
      exact hrest.noDigit
    exact ⟨_, Parser.numbersFrom_noDigit hstop rfl [] j, rfl⟩
  | cons d ds =>
    obtain ⟨v, hloop⟩ := Parser.numbersFrom_list hsep hrest hds rfl hahead [] j
    refine ⟨_, hloop, ?_⟩
    simp [listState, State.advance, State.withResult, State.initial]

/-- **A list of numbers is read back.**  The numbers are texts of digits, written with a
    separator between them, and what follows does not go on with them.  Then `sepBy`
    returns the numbers and ends behind the last one, or behind the separator if there is
    one more.  So does `sepBy1` if there is a number; if there is none, it fails at the
    beginning. -/
theorem separated_numbers_round_trip (rules : Rules) (hsep : IsSeparator sep)
    (hds : ∀ d ∈ ds, IsNumber d) (hrest : EndsList sep rest) (j : Journal) :
    (∃ k n, ∀ fuel, n ≤ fuel → (sepBy (.literal sep) digits).run rules fuel (listText sep ds rest) j
      = .returned (listState sep ds rest) k) ∧
    (ds ≠ [] → ∃ k n, ∀ fuel, n ≤ fuel →
      (sepBy1 (.literal sep) digits).run rules fuel (listText sep ds rest) j
        = .returned (listState sep ds rest) k) ∧
    (ds = [] → ∃ s k n, s.FailedAt .repetitionEmpty 0 ∧ ∀ fuel, n ≤ fuel →
      (sepBy1 (.literal sep) digits).run rules fuel (listText sep ds rest) j = .returned s k) := by
  obtain ⟨k, hrun⟩ := exists_run_returned rules (sepBy (.literal sep) digits)
    (listText sep ds rest) j
  obtain ⟨k1, hrun1⟩ := exists_run_returned rules (sepBy1 (.literal sep) digits)
    (listText sep ds rest) j
  rw [meaning_sepBy, meaning_literal, digits, meaning_regex] at hrun
  rw [meaning_sepBy1, meaning_literal, digits, meaning_regex] at hrun1
  obtain ⟨state, hloop, hstate⟩ := numbersFrom_listText hsep hds hrest k
  obtain ⟨state1, hloop1, hstate1⟩ := numbersFrom_listText hsep hds hrest k1
  refine ⟨?_, fun hsome => ?_, fun hnone => ?_⟩
  · exact hrun _ k (hstate ▸ Parser.separated_of_gather rfl hloop)
  · have hlength : 0 < (ds.map Value.str).length := by
      simpa using List.length_pos_iff.mpr hsome
    exact hrun1 _ k1 (hstate1 ▸ Parser.separated1_of_gather rfl hloop1 hlength)
  · obtain ⟨message, hempty⟩ := Parser.separated1_of_nothing rfl hloop1 (by simp [hnone])
    obtain ⟨m, n, hn⟩ := hrun1 _ k1 hempty
    exact ⟨_, m, n, State.FailedAt.fail rfl _ message, hn⟩

/-- Two numbers are read back, with half a separator behind them, and with a whole one,
    which is read, too; no number is read back where there is none. -/
theorem dashed_numbers_round_trip :
    IsSeparator "--" ∧ (∀ d ∈ ["1", "22"], IsNumber d) ∧ EndsList "--" "-7" ∧
      EndsList "--" "--x" ∧
      (∃ k n, ∀ fuel, n ≤ fuel → (sepBy (.literal "--") digits).run [] fuel
          (listText "--" ["1", "22"] "-7") {}
        = .returned (listState "--" ["1", "22"] "-7") k) ∧
      (∃ k n, ∀ fuel, n ≤ fuel → (sepBy1 (.literal "--") digits).run [] fuel
          (listText "--" ["1", "22"] "--x") {}
        = .returned (listState "--" ["1", "22"] "--x") k) ∧
      (∃ s k n, s.FailedAt .repetitionEmpty 0 ∧ ∀ fuel, n ≤ fuel →
        (sepBy1 (.literal "--") digits).run [] fuel (listText "--" [] "-7") {}
          = .returned s k) ∧
      listText "--" ["1", "22"] "-7" = Text.ofString "1--22-7" ∧
      (listState "--" ["1", "22"] "-7").cursor = 5 ∧
      listText "--" ["1", "22"] "--x" = Text.ofString "1--22--x" ∧
      (listState "--" ["1", "22"] "--x").cursor = 7 := by
  have hsep : IsSeparator "--" := ⟨by decide, by decide⟩
  have hds : ∀ d ∈ ["1", "22"], IsNumber d := by
    intro d hd
    simp only [List.mem_cons, List.not_mem_nil, or_false] at hd
    rcases hd with rfl | rfl <;> exact ⟨by decide, by decide⟩
  have hpart : EndsList "--" "-7" := by
    refine ⟨by decide, fun more hmore => ?_⟩
    simp at hmore
  have hwhole : EndsList "--" "--x" := by
    refine ⟨by decide, fun more hmore => ?_⟩
    obtain rfl : ['x'] = more := by simpa using hmore
    decide
  have hnone : ∀ d ∈ ([] : List String), IsNumber d := nofun
  exact ⟨hsep, hds, hpart, hwhole, (separated_numbers_round_trip [] hsep hds hpart {}).1,
    (separated_numbers_round_trip [] hsep hds hwhole {}).2.1 nofun,
    (separated_numbers_round_trip [] hsep hnone hpart {}).2.2 rfl, rfl, by decide, rfl, by decide⟩

end Grammar

end Descent
