/-
  Descent/Proofs/Literals.lean
  ============================
  **Literals one after another are one literal.**

  A text can be looked for in one piece or cut into pieces, each a literal of its own, whose
  results are put together again.  As long as no piece is empty this makes no difference to
  what is found (`Grammar.pieces_read_as_one_literal`).  An empty piece behind the last
  character fails, since nothing is left to read (`Parser.sequence_empty_at_end`).

  What differs is the report of a failure.  The literal in one piece fails where it starts.
  The pieces fail behind the longest part of the list that is there, and that is told
  without the parser, by comparing characters (`BeginsWith`).
-/
import Descent.Outline.Transform
import Descent.Proofs.Ahead
import Descent.Proofs.Steps
import Mathlib.Order.Bounds.Basic

namespace Descent

variable {ws before after : List String} {w : String} {cs rest : List Char}

/-! ### How much of a list of strings is there -/

/-- The list has `n` strings to begin with, and the characters begin with these strings, one
    after the other. -/
def BeginsWith (cs : List Char) (ws : List String) (n : Nat) : Prop :=
  n ≤ ws.length ∧ (String.join (ws.take n)).toList <+: cs

theorem toList_join_append (before after : List String) :
    (String.join (before ++ after)).toList
      = (String.join before).toList ++ (String.join after).toList := by
  rw [String.join_append, String.toList_append]

theorem join_prefix_join (h : before <+: ws) :
    (String.join before).toList <+: (String.join ws).toList := by
  obtain ⟨after, rfl⟩ := h
  rw [toList_join_append]
  exact List.prefix_append _ _

theorem join_ne_empty (hsome : ws ≠ []) (hws : ∀ w ∈ ws, w ≠ "") : String.join ws ≠ "" := by
  cases ws with
  | nil => exact absurd rfl hsome
  | cons w ws =>
    intro hempty
    rw [String.join_cons, String.append_eq_empty_iff] at hempty
    exact hws w List.mem_cons_self hempty.1

/-- Where the strings are not all there, one of them is the first that is missing. -/
theorem exists_first_missing (h : ¬(String.join ws).toList <+: cs) :
    ∃ before w after rest, ws = before ++ w :: after ∧
      cs = (String.join before).toList ++ rest ∧ ¬w.toList <+: rest := by
  induction ws generalizing cs with
  | nil => exact absurd List.nil_prefix h
  | cons w ws ih =>
    by_cases hw : w.toList <+: cs
    · obtain ⟨rest, rfl⟩ := hw
      rw [String.join_cons, String.toList_append, List.prefix_append_right_inj] at h
      obtain ⟨before, w', after, rest', rfl, rfl, hmissing⟩ := ih h
      refine ⟨w :: before, w', after, rest', rfl, ?_, hmissing⟩
      rw [String.join_cons, String.toList_append, List.append_assoc]
    · exact ⟨[], w, ws, cs, rfl, rfl, hw⟩

/-- The strings in front of the first that is missing are as many as are there. -/
theorem isGreatest_beginsWith (hmissing : ¬w.toList <+: rest) :
    IsGreatest {n | BeginsWith ((String.join before).toList ++ rest) (before ++ w :: after) n}
      before.length := by
  constructor
  · refine ⟨?_, ?_⟩
    · rw [List.length_append]
      exact Nat.le_add_right _ _
    · rw [List.take_left]
      exact List.prefix_append _ _
  · rintro n ⟨-, hthere⟩
    by_contra hmore
    have hlonger : before ++ [w] <+: (before ++ w :: after).take n := by
      rw [List.prefix_take_iff]
      refine ⟨⟨after, by simp⟩, ?_⟩
      rw [List.length_append, List.length_singleton]
      omega
    have hjoined := (join_prefix_join hlonger).trans hthere
    rw [toList_join_append, List.prefix_append_right_inj, String.join_cons, String.join_nil,
      String.append_empty] at hjoined
    exact hmissing hjoined

namespace Parser

variable {s t : State} {n : Nat}

/-! ### Literals in a sequence -/

/-- Literals that are there are gone through, whatever comes behind them. -/
theorem sequenceFrom_literals (ps : List Parser) (hbefore : ∀ w ∈ before, w ≠ "")
    (h : s.Behind n ((String.join before).toList ++ rest) t) (results : List Value) (j : Journal) :
    ∃ u, s.Behind (n + (String.join before).length) rest u ∧
      sequenceFrom (before.map literal ++ ps) results t j
        = sequenceFrom ps ((before.map Value.str).reverse ++ results) u j := by
  induction before generalizing n t results with
  | nil => exact ⟨t, h, rfl⟩
  | cons w before ih =>
    rw [String.join_cons, String.toList_append, List.append_assoc] at h
    have hliteral := congrFun (literal_here (hbefore w List.mem_cons_self) h.ok h.ahead) j
    have hbehind := h.advance_further (.str w)
    rw [String.length_toList] at hbehind
    obtain ⟨u, hu, hrest⟩ := ih (fun v hv => hbefore v (List.mem_cons_of_mem w hv)) hbehind
      (.str w :: results)
    refine ⟨u, ?_, ?_⟩
    · rw [String.join_cons, String.length_append, ← Nat.add_assoc]
      exact hu
    · rw [List.map_cons, List.cons_append, sequenceFrom_ok hliteral h.ok, List.map_cons,
        List.reverse_cons, List.append_assoc]
      exact hrest

/-- As `sequenceFrom_literals`, from the beginning of a sequence. -/
theorem sequence_literals (ps : List Parser) (hbefore : ∀ w ∈ before, w ≠ "")
    (hs : s.isError = false) (h : s.ahead = (String.join before).toList ++ rest) (j : Journal) :
    ∃ u, s.Behind (String.join before).length rest u ∧
      sequence (before.map literal ++ ps) s j
        = sequenceFrom ps (before.map Value.str).reverse u j := by
  obtain ⟨u, hu, hrest⟩ := sequenceFrom_literals ps hbefore (.start hs h) [] j
  rw [Nat.zero_add] at hu
  rw [List.append_nil] at hrest
  refine ⟨u, hu, ?_⟩
  rw [sequence_eq hs]
  exact hrest

theorem sequence_literals_here (hws : ∀ w ∈ ws, w ≠ "") (hs : s.isError = false)
    (h : s.ahead = (String.join ws).toList ++ rest) (j : Journal) :
    sequence (ws.map literal) s j = .returned
      (s.advance (s.cursor + (String.join ws).length) (.list (ws.map .str))) j := by
  obtain ⟨u, hu, hrest⟩ := sequence_literals [] hws hs h j
  rw [List.append_nil] at hrest
  rw [hrest, sequenceFrom, List.reverse_reverse, ← hu.cursor, ← hu.advance]
  rfl

theorem sequence_literals_missing (hbefore : ∀ w ∈ before, w ≠ "") (hs : s.isError = false)
    (h : s.ahead = (String.join before).toList ++ rest) (hmissing : ¬w.toList <+: rest)
    (j : Journal) :
    ∃ t, t.FailedAt (ErrorKind.literalMismatch.orEnd rest)
        (s.cursor + (String.join before).length) ∧
      sequence ((before ++ w :: after).map literal) s j = .returned t j := by
  obtain ⟨u, hu, hrest⟩ := sequence_literals ((w :: after).map literal) hbefore hs h j
  obtain ⟨message, hliteral⟩ := literal_missing hu.ok (hu.ahead ▸ hmissing)
  rw [hu.ahead] at hliteral
  refine ⟨_, .fail hu.cursor _ message, ?_⟩
  rw [List.map_append, hrest, List.map_cons]
  exact sequenceFrom_failed (congrFun hliteral j) rfl

/-- An empty piece fails behind pieces that reach the end of the input, though there is
    nothing that it would have to find. -/
theorem sequence_empty_at_end (hws : ∀ w ∈ ws, w ≠ "") (hs : s.isError = false)
    (h : s.ahead = (String.join ws).toList) (j : Journal) :
    ∃ t, t.FailedAt .endOfInput (s.cursor + (String.join ws).length) ∧
      sequence ((ws ++ [""]).map literal) s j = .returned t j := by
  rw [← List.append_nil (String.join ws).toList] at h
  obtain ⟨u, hu, hrest⟩ := sequence_literals [literal ""] hws hs h j
  have hend : u.atEnd = true := State.atEnd_iff.mpr hu.ahead
  have hliteral : ∃ message, literal "" u = pure (u.fail .endOfInput message) := by
    rw [literal, hu.ok, if_neg Bool.false_ne_true, if_pos hend]
    exact ⟨_, rfl⟩
  obtain ⟨message, hliteral⟩ := hliteral
  refine ⟨_, .fail hu.cursor _ message, ?_⟩
  rw [List.map_append, List.map_singleton, hrest]
  exact sequenceFrom_failed (congrFun hliteral j) rfl

end Parser

/-! ### Pieces and the whole -/

/-- Strings that stand in a list are put together. -/
theorem Transform.apply_join (ws : List String) :
    Transform.join.apply (.list (ws.map .str)) = pure (.str (String.join ws)) := by
  have hstrings : (ws.map Value.str).mapM Value.string? = some ws := by
    rw [List.mapM_map]
    exact (List.mapM_pure (f := id)).trans (congrArg some (List.map_id ws))
  rw [Transform.apply, Transform.joined?, hstrings]
  rfl

/-- The state has failed at the place `c` of the input, where a literal is missing.  It reports
    the end of the input if there is nothing at that place, and otherwise a mismatch. -/
def State.LacksLiteral (t : State) (input : Text) (c : Nat) : Prop :=
  t.FailedAt (if input.size ≤ c then .endOfInput else .literalMismatch) c

theorem State.FailedAt.lacksLiteral {s t : State} (h : s.ahead = cs ++ rest)
    (ht : t.FailedAt (ErrorKind.literalMismatch.orEnd rest) (s.cursor + cs.length)) :
    t.LacksLiteral s.input (s.cursor + cs.length) := by
  have hend := State.eq_nil_iff_of_ahead h
  rw [State.LacksLiteral]
  cases rest with
  | nil =>
    rw [if_pos (hend.mp rfl)]
    exact ht
  | cons c rest =>
    rw [if_neg (mt hend.mpr nofun)]
    exact ht

namespace Grammar

variable {s : State}

/-- A text in pieces: each is a literal, and what they have read is put together. -/
def pieces (ws : List String) : Grammar :=
  .map (.sequence (ws.map .literal)) Transform.join.apply

theorem parser_pieces (rules : Rules) (fuel : Nat) (ws : List String) :
    (pieces ws).parser rules (fuel + 3)
      = (Parser.sequence (ws.map Parser.literal)).map fun v => (Transform.join.apply v).run := by
  have hparts : (ws.map Grammar.literal).map (parser rules (fuel + 1))
      = ws.map Parser.literal := by
    rw [List.map_map]
    rfl
  rw [← hparts]
  rfl

/-- **A text that is cut into pieces is read as in one piece.**  No piece is empty, and there
    is one at least.  Then the pieces succeed where the whole does, which is where the input
    goes on with it, and they end in the same state.  Where they fail, the whole fails at the
    cursor, and the pieces fail behind the longest part of the list that the input goes on
    with. -/
theorem pieces_read_as_one_literal (rules : Rules) (fuel : Nat) (hsome : ws ≠ [])
    (hws : ∀ w ∈ ws, w ≠ "") (hs : s.isError = false) (j : Journal) :
    ∃ t u, (pieces ws).parser rules (fuel + 3) s j = .returned t j ∧
      (literal (String.join ws)).parser rules (fuel + 3) s j = .returned u j ∧
      (t.isError = false ↔ u.isError = false) ∧
      (u.isError = false ↔ (String.join ws).toList <+: s.ahead) ∧
      (u.isError = false → t = u) ∧
      (u.isError = true → u.LacksLiteral s.input s.cursor ∧
        ∃ n, IsGreatest {n | BeginsWith s.ahead ws n} n ∧
          t.LacksLiteral s.input (s.cursor + (String.join (ws.take n)).length)) := by
  rw [parser_pieces]
  by_cases hthere : (String.join ws).toList <+: s.ahead
  · obtain ⟨rest, hahead⟩ := hthere
    have hpieces := Parser.sequence_literals_here hws hs hahead.symm j
    have hjoin := congrFun (congrArg Response.run (Transform.apply_join ws)) j
    have hwhole := Parser.literal_here (join_ne_empty hsome hws) hs hahead.symm
    refine ⟨_, _, Parser.map_ok hpieces hs hjoin, congrFun hwhole j, Iff.rfl, ?_, fun _ => rfl, ?_⟩
    · exact iff_of_true hs ⟨rest, hahead⟩
    · intro hfailed
      exact absurd (hs.symm.trans hfailed) Bool.false_ne_true
  · obtain ⟨message, hwhole⟩ := Parser.literal_missing hs hthere
    obtain ⟨before, w, after, rest, rfl, hahead, hmissing⟩ := exists_first_missing hthere
    have hbefore : ∀ v ∈ before, v ≠ "" := fun v hv => hws v (List.mem_append_left _ hv)
    obtain ⟨t, ht, hpieces⟩ := Parser.sequence_literals_missing hbefore hs hahead hmissing j
    have hu : (s.fail (ErrorKind.literalMismatch.orEnd s.ahead) message).FailedAt
        (ErrorKind.literalMismatch.orEnd s.ahead) s.cursor := .fail rfl _ message
    refine ⟨t, _, Parser.map_failed hpieces ht.isError, congrFun hwhole j, ?_, ?_, ?_, ?_⟩
    · rw [ht.isError, hu.isError]
    · exact iff_of_false nofun hthere
    · exact nofun
    · intro _
      refine ⟨hu.lacksLiteral (List.nil_append s.ahead).symm, before.length, ?_, ?_⟩
      · rw [hahead]
        exact isGreatest_beginsWith hmissing
      · rw [List.take_left, ← String.length_toList]
        rw [← String.length_toList] at ht
        exact ht.lacksLiteral hahead

/-- Two pieces that are there, two of which the end of the input cuts the second off, and two
    that are looked for behind the end. -/
theorem pieces_of_abc :
    ["ab", "c"] ≠ [] ∧ (∀ w ∈ ["ab", "c"], w ≠ "") ∧
      (∃ t, t.isError = false ∧
        (pieces ["ab", "c"]).parser [] 3 { input := Text.ofString "xabcd", cursor := 1 } {}
          = .returned t {} ∧
        (literal "abc").parser [] 3 { input := Text.ofString "xabcd", cursor := 1 } {}
          = .returned t {}) ∧
      (∃ t u, t.FailedAt .endOfInput 3 ∧ u.FailedAt .literalMismatch 1 ∧
        (pieces ["ab", "c"]).parser [] 3 { input := Text.ofString "xab", cursor := 1 } {}
          = .returned t {} ∧
        (literal "abc").parser [] 3 { input := Text.ofString "xab", cursor := 1 } {}
          = .returned u {}) ∧
      (∃ t u, t.FailedAt .endOfInput 5 ∧ u.FailedAt .endOfInput 5 ∧
        (pieces ["ab", "c"]).parser [] 3 { input := Text.ofString "xab", cursor := 5 } {}
          = .returned t {} ∧
        (literal "abc").parser [] 3 { input := Text.ofString "xab", cursor := 5 } {}
          = .returned u {}) := by
  have hsome : ["ab", "c"] ≠ [] := nofun
  have hws : ∀ w ∈ ["ab", "c"], w ≠ "" := by decide
  have hcut : IsGreatest {n | BeginsWith ((String.join ["ab"]).toList ++ []) (["ab"] ++ ["c"]) n}
      ["ab"].length := isGreatest_beginsWith (by decide)
  have hbehind : IsGreatest {n | BeginsWith ((String.join []).toList ++ []) ([] ++ ["ab", "c"]) n}
      0 := isGreatest_beginsWith (by decide)
  refine ⟨hsome, hws, ?_, ?_, ?_⟩
  · obtain ⟨t, u, ht, hu, -, hthere, hsame, -⟩ := pieces_read_as_one_literal [] 0 hsome hws
      (s := { input := Text.ofString "xabcd", cursor := 1 }) rfl {}
    have hok : u.isError = false := hthere.mpr (by decide)
    obtain rfl := hsame hok
    exact ⟨t, hok, ht, hu⟩
  · obtain ⟨t, u, ht, hu, -, hthere, -, hfails⟩ := pieces_read_as_one_literal [] 0 hsome hws
      (s := { input := Text.ofString "xab", cursor := 1 }) rfl {}
    have hfailed : u.isError = true := by
      rw [← Bool.not_eq_false, hthere]
      decide
    obtain ⟨hwhole, n, hn, hpieces⟩ := hfails hfailed
    obtain rfl : n = 1 := hn.unique hcut
    exact ⟨t, u, hpieces, hwhole, ht, hu⟩
  · obtain ⟨t, u, ht, hu, -, hthere, -, hfails⟩ := pieces_read_as_one_literal [] 0 hsome hws
      (s := { input := Text.ofString "xab", cursor := 5 }) rfl {}
    have hfailed : u.isError = true := by
      rw [← Bool.not_eq_false, hthere]
      decide
    obtain ⟨hwhole, n, hn, hpieces⟩ := hfails hfailed
    obtain rfl : n = 0 := hn.unique hbehind
    exact ⟨t, u, hpieces, hwhole, ht, hu⟩

end Grammar

end Descent
