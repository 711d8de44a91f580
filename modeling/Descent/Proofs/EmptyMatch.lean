/-
  Descent/Proofs/EmptyMatch.lean
  ==============================
  **A pattern without assertions that can match nothing can match nothing everywhere.**

  A match that ends where it has started has not moved on its way, since nothing in a
  pattern moves back.  Without assertions, nothing on such a way asks for what stands
  around: no class takes a character, whatever a group captured is empty, and so is what
  a back-reference repeats.  So the same way can be gone at any other place of any other
  text (`Node.search_stalls`), also if there, or here, longer ways are tried before it.

  To try a pattern on the empty text is therefore enough to rule out empty matches
  altogether.  The parser that such a pattern becomes fails only where the pattern does
  not match, and reads one character at least where it does
  (`Grammar.accepted_pattern_reads`).
-/
import Descent.Grammar.Meaning
import Descent.Proofs.NamedPatterns

namespace Descent

namespace Pattern

variable {t u : Text} {c d : Nat}

/-- Whether the node is made without anchors, and without looking ahead or behind. -/
def Node.assertionFree : Node → Bool
  | .empty | .one _ | .backref _ _ => true
  | .anchor _ | .look _ _ _ => false
  | .seq first second => first.assertionFree && second.assertionFree
  | .alt first second => first.assertionFree && second.assertionFree
  | .group _ body => body.assertionFree
  | .loop _ _ _ body => body.assertionFree

/-! ### Ways that do not move -/

/-- A match that is found from a place ends there or behind that. -/
def Continuation.Onward (t : Text) (next : Continuation) : Prop :=
  ∀ i caps m, i ≤ t.size → next i caps = some m → i ≤ m.1

theorem Reaches.onward {step : Continuation → Continuation} (h : Reaches t step)
    {next : Continuation} (hnext : next.Onward t) : (step next).Onward t := by
  intro i caps m hi hm
  obtain ⟨j, caps', hij, hj, hend⟩ := h next i caps m hi hm
  exact Nat.le_trans hij (hnext j caps' m hj hend)

/-- Groups that have captured the empty text at one place, the latest first. -/
def hollow (place : Nat) (groups : List Nat) : Captures :=
  groups.map fun index => (index, place, place)

theorem lookup_hollow (place index : Nat) (groups : List Nat) :
    (hollow place groups).lookup index
      = if index ∈ groups then some (place, place) else none := by
  induction groups with
  | nil => rfl
  | cons group groups ih =>
    rw [hollow, List.map_cons, List.lookup_cons, ← hollow, ih]
    by_cases hindex : index = group
    · simp [hindex]
    · have hother : (index == group) = false := by simpa using hindex
      simp [hother, hindex]

/-- If the first continuation finds an empty match at `c`, where all that was captured is
    empty, then the second one finds some match at `d`. -/
def Stalls (c d : Nat) (next next' : Continuation) : Prop :=
  ∀ groups m, next c (hollow c groups) = some m → m.1 = c →
    (next' d (hollow d groups)).isSome = true

/-- The steps take continuations of which this holds to such continuations. -/
def KeepsStalling (t : Text) (c d : Nat) (step step' : Continuation → Continuation) : Prop :=
  ∀ next next' : Continuation, next.Onward t → Stalls c d next next' →
    Stalls c d (step next) (step' next')

/-! ### Loops -/

theorem rounds_stalls {body body' : Continuation → Continuation} (hreaches : Reaches t body)
    (hbody : KeepsStalling t c d body body') (n : Nat) :
    KeepsStalling t c d (fun next => rounds body next n) fun next => rounds body' next n := by
  intro next next' honward hstalls
  induction n with
  | zero => exact hstalls
  | succ n ih => exact hbody _ _ ((rounds_reaches hreaches n).onward honward) ih

section FurtherRounds

variable {greedy : Bool} {body : Continuation → Continuation} {next : Continuation}
  {bound i : Nat} {caps : Captures} {m : Match}

/-- A round that would start where the round before has started is not made. -/
theorem furtherRounds_again (greedy : Bool) (body : Continuation → Continuation)
    (next : Continuation) (bound i : Nat) (caps : Captures) :
    furtherRounds greedy body next bound (some i) i caps = next i caps := by
  cases bound with
  | zero => rfl
  | succ bound => simp only [furtherRounds, beq_self_eq_true, if_true]

theorem furtherRounds_cases
    (h : furtherRounds greedy body next (bound + 1) none i caps = some m) :
    next i caps = some m ∨
      body (furtherRounds greedy body next bound (some i)) i caps = some m := by
  simp only [furtherRounds, Option.none_beq_some, Bool.false_eq_true, if_false] at h
  split at h
  · split at h
    · rename_i hround
      exact .inr (hround.trans h)
    · exact .inl h
  · split at h
    · rename_i hstop
      exact .inl (hstop.trans h)
    · exact .inr h

theorem furtherRounds_isSome
    (h : (next i caps).isSome = true ∨
      (body (furtherRounds greedy body next bound (some i)) i caps).isSome = true) :
    (furtherRounds greedy body next (bound + 1) none i caps).isSome = true := by
  simp only [furtherRounds, Option.none_beq_some, Bool.false_eq_true, if_false]
  split
  · split
    · rfl
    · rename_i hround
      exact h.resolve_right (by simp [hround])
  · split
    · rfl
    · rename_i hstop
      exact h.resolve_left (by simp [hstop])

end FurtherRounds

/-- Whether there are further rounds to make does not depend on the place. -/
theorem furtherBound_eq_zero_iff (t : Text) (min : Nat) (max : Option Nat) (i : Nat) :
    furtherBound t min max i = 0 ↔ ∃ m, max = some m ∧ m ≤ min := by
  cases max with
  | none => simp [furtherBound]
  | some m =>
    simp only [furtherBound, Option.some.injEq, exists_eq_left']
    change Min.min (m - min) (t.size - i + 1) = 0 ↔ m ≤ min
    omega

theorem furtherRounds_stalls {body body' : Continuation → Continuation}
    (hreaches : Reaches t body) (hbody : KeepsStalling t c d body body') (greedy : Bool)
    {bound bound' : Nat} (hbound : bound = 0 ↔ bound' = 0) :
    KeepsStalling t c d (fun next => furtherRounds greedy body next bound none)
      fun next => furtherRounds greedy body' next bound' none := by
  intro next next' honward hstalls
  cases bound with
  | zero =>
    obtain rfl := hbound.mp rfl
    exact hstalls
  | succ bound =>
    obtain ⟨bound', rfl⟩ : ∃ n, bound' = n + 1 :=
      Nat.exists_eq_succ_of_ne_zero fun h => nomatch hbound.mpr h
    -- An empty round is the last one: behind it the loop is left.
    have hagain : Stalls c d (furtherRounds greedy body next bound (some c))
        (furtherRounds greedy body' next' bound' (some d)) := by
      intro groups m hm hempty
      rw [furtherRounds_again] at hm ⊢
      exact hstalls groups m hm hempty
    have hrest : Continuation.Onward t (furtherRounds greedy body next bound (some c)) :=
      (furtherRounds_reaches hreaches greedy bound (some c)).onward honward
    intro groups m hm hempty
    apply furtherRounds_isSome
    rcases furtherRounds_cases hm with hstop | hround
    · exact .inl (hstalls groups m hstop hempty)
    · exact .inr (hbody _ _ hrest hagain groups m hround hempty)

/-! ### Nodes -/

/-- **A node without assertions that matches nothing somewhere does so everywhere.** -/
theorem Node.search_stalls {node : Node} (hfree : node.assertionFree = true) :
    KeepsStalling t c d (node.search t) (node.search u) := by
  induction node with
  | empty => exact fun next next' _ hstalls => hstalls
  | one cls =>
    intro next next' honward _ groups m hm hempty
    simp only [Node.search] at hm
    split at hm
    · rename_i ch hch
      split at hm
      · -- The character has been read, and there is no way back.
        have hbehind : c + 1 ≤ m.1 := honward (c + 1) _ m (Text.lt_size_of_get? hch) hm
        omega
      · cases hm
    · cases hm
  | anchor a => cases hfree
  | seq first second ihfirst ihsecond =>
    rw [assertionFree, Bool.and_eq_true] at hfree
    intro next next' honward hstalls
    exact ihfirst hfree.1 _ _ (second.search_reaches.onward honward)
      (ihsecond hfree.2 next next' honward hstalls)
  | alt first second ihfirst ihsecond =>
    rw [assertionFree, Bool.and_eq_true] at hfree
    intro next next' honward hstalls groups m hm hempty
    simp only [Node.search] at hm ⊢
    split at hm
    · rename_i m' hfirst
      cases hm
      obtain ⟨m', hm'⟩ := Option.isSome_iff_exists.mp
        (ihfirst hfree.1 next next' honward hstalls groups m hfirst hempty)
      rw [hm']
      rfl
    · have hsecond := ihsecond hfree.2 next next' honward hstalls groups m hm hempty
      split
      · rfl
      · exact hsecond
  | group index body ih =>
    intro next next' honward hstalls
    apply ih hfree
    · exact fun j caps m hj hm => honward j _ m hj hm
    · exact fun groups m hm hempty => hstalls (index :: groups) m hm hempty
  | backref index ignoreCase =>
    intro next next' _ hstalls groups m hm hempty
    simp only [Node.search, lookup_hollow] at hm ⊢
    by_cases hindex : index ∈ groups
    · simp only [if_pos hindex, Nat.sub_self, repeats, Nat.add_zero, if_true] at hm ⊢
      exact hstalls groups m hm hempty
    · simp only [if_neg hindex] at hm
      cases hm
  | loop greedy min max body ih =>
    intro next next' honward hstalls
    have hbody := ih hfree
    have hreaches : Reaches t (body.search t) := body.search_reaches
    have hbound : furtherBound t min max c = 0 ↔ furtherBound u min max d = 0 := by
      rw [furtherBound_eq_zero_iff, furtherBound_eq_zero_iff]
    have hfurther : Stalls c d
        (furtherRounds greedy (body.search t) next (furtherBound t min max c) none)
        (furtherRounds greedy (body.search u) next' (furtherBound u min max d) none) :=
      furtherRounds_stalls hreaches hbody greedy hbound next next' honward hstalls
    refine rounds_stalls hreaches hbody min _ _ (fun j caps m hj hm => ?_) hfurther
    exact (furtherRounds_reaches hreaches greedy _ none).onward honward j caps m hj hm
  | look direction negated body ih => cases hfree

/-! ### Patterns that are accepted -/

section Accepted

variable {p : Pattern}

/-- An empty match does not depend on the text, nor on the place in it. -/
theorem isSome_matchAt_of_empty (hfree : p.root.assertionFree = true) {i : Nat}
    (h : p.matchAt t i = some i) (u : Text) (j : Nat) : (p.matchAt u j).isSome = true := by
  obtain ⟨m, hm, hempty⟩ := Option.map_eq_some_iff.mp h
  have hdone : Stalls i j (fun k caps => some (k, caps)) (fun k caps => some (k, caps)) :=
    fun _ _ _ _ => rfl
  have honward : Continuation.Onward t (fun k caps => some (k, caps)) := by
    intro k caps m _ hm
    cases hm
    exact Nat.le_refl k
  have hsearch := Node.search_stalls (u := u) hfree _ _ honward hdone [] m hm hempty
  rw [matchAt, Option.isSome_map]
  exact hsearch

theorem matchesEmpty_of_compile {source name : String} {flags : Flags}
    (h : compile source name flags = .ok p) : p.matchesEmpty = false := by
  simp only [compile] at h
  split at h
  · cases h
  · split at h
    · cases h
    · rename_i hnot
      cases h
      simpa using hnot

/-- A pattern that is tried in vain on the empty text matches the empty text nowhere. -/
theorem matchAt_ne_self (htried : p.matchesEmpty = false)
    (hfree : p.root.assertionFree = true) (t : Text) (i : Nat) : p.matchAt t i ≠ some i := by
  intro h
  have hsome : p.matchesEmpty = true := isSome_matchAt_of_empty hfree h _ 0
  exact absurd (htried.symm.trans hsome) Bool.false_ne_true

-- With an assertion the trial says nothing: on the empty text there is nothing to look at.
example : (read? "(?=.)x*" {}).map (fun p => (p.matchesEmpty, p.matchAt (Text.ofString "b") 0))
    = some (false, some 0) := by cbv

theorem lt_of_matchAt (htried : p.matchesEmpty = false) (hfree : p.root.assertionFree = true)
    {i stop : Nat} (hi : i ≤ t.size) (h : p.matchAt t i = some stop) :
    i < stop ∧ stop ≤ t.size := by
  obtain ⟨hle, hstop⟩ := matchAt_bounds hi h
  refine ⟨Nat.lt_of_le_of_ne hle ?_, hstop⟩
  rintro rfl
  exact matchAt_ne_self htried hfree t i h

end Accepted

end Pattern

/-- What the parser of a pattern does inside the input depends on the match alone, if
    that one is not empty. -/
theorem Parser.regex_of_ne {p : Pattern} {s : State} (name : String) (hs : s.isError = false)
    (hinside : s.atEnd = false) (hne : p.matchAt s.input s.cursor ≠ some s.cursor) :
    Parser.regex name p s =
      match p.matchAt s.input s.cursor with
      | none => pure (Parser.regex.noMatch name s)
      | some stop => pure (s.advance stop (.str (s.input.slice s.cursor stop))) := by
  simp only [Parser.regex, hs, hinside, Bool.false_eq_true, if_false]
  cases hmatch : p.matchAt s.input s.cursor with
  | none => rfl
  | some stop =>
    have hmoved : stop ≠ s.cursor := fun h => hne (by rw [hmatch, h])
    exact if_neg hmoved

namespace Grammar

/-- **What is accepted and has no assertions reads something wherever it matches.**  The
    match is never empty, so the parser fails only where there is none. -/
theorem accepted_pattern_reads {source name : String} {flags : Pattern.Flags} {p : Pattern}
    (haccepted : Pattern.compile source name flags = .ok p)
    (hfree : p.root.assertionFree = true) :
    (∀ t i, p.matchAt t i ≠ some i) ∧
    ∀ rules fuel s j, s.isError = false → s.cursor < s.input.size →
      (p.matchAt s.input s.cursor = none ∧
        (regex name p).parser rules (fuel + 1) s j
          = .returned (s.fail .classMismatch
              (name ++ ": Unable to match " ++ name ++ " at index " ++ toString s.cursor)) j) ∨
      ∃ stop, p.matchAt s.input s.cursor = some stop ∧ s.cursor < stop ∧
        stop ≤ s.input.size ∧
        (regex name p).parser rules (fuel + 1) s j
          = .returned (s.advance stop (.str (s.input.slice s.cursor stop))) j := by
  have htried : p.matchesEmpty = false := Pattern.matchesEmpty_of_compile haccepted
  refine ⟨Pattern.matchAt_ne_self htried hfree, fun rules fuel s j hs hinside => ?_⟩
  have hend : s.atEnd = false := by simpa [State.atEnd] using hinside
  have hregex : (regex name p).parser rules (fuel + 1) s j = Parser.regex name p s j := rfl
  rw [hregex, Parser.regex_of_ne name hs hend (Pattern.matchAt_ne_self htried hfree _ _)]
  cases hmatch : p.matchAt s.input s.cursor with
  | none => exact .inl ⟨rfl, rfl⟩
  | some stop =>
    obtain ⟨hlt, hle⟩ := Pattern.lt_of_matchAt htried hfree (Nat.le_of_lt hinside) hmatch
    exact .inr ⟨stop, rfl, hlt, hle, rfl⟩

/-! ### A pattern that repeats what it has read -/

/-- Letters `c`, and runs of `a` with a `b` behind, as few as possible; then the latest run
    once more.  A run may be empty, and then its repetition is. -/
def echo : Pattern where
  source := "(?:(a*)b|c)+?\\1"
  root :=
    .seq
      (.loop false 1 none (.alt
        (.seq (.group 1 (.loop true 0 none (.one { items := [.range 'a' 'a'] })))
          (.one { items := [.range 'b' 'b'] }))
        (.one { items := [.range 'c' 'c'] })))
      (.backref 1 false)

/-- In the first text the loop has to go round twice before there is something to repeat; in
    the second text nothing follows that could repeat it. -/
theorem echo_reads :
    Pattern.compile echo.source "echo" {} = .ok echo ∧ echo.root.assertionFree = true ∧
      (∀ t i, echo.matchAt t i ≠ some i) ∧
      (regex "echo" echo).parser [] 1 { input := Text.ofString "xcaabaac", cursor := 1 } {}
        = .returned { input := Text.ofString "xcaabaac", cursor := 7, result := .str "caabaa" }
            {} ∧
      (regex "echo" echo).parser [] 1 { input := Text.ofString "xcaab", cursor := 1 } {}
        = .returned (({ input := Text.ofString "xcaab", cursor := 1 } : State).fail .classMismatch
            "echo: Unable to match echo at index 1") {} := by
  have hcompile : Pattern.compile echo.source "echo" {} = .ok echo := by cbv
  have hfree : echo.root.assertionFree = true := rfl
  obtain ⟨hnever, hreads⟩ := accepted_pattern_reads hcompile hfree
  refine ⟨hcompile, hfree, hnever, ?_, ?_⟩
  · have hmatch : echo.matchAt (Text.ofString "xcaabaac") 1 = some 7 := by cbv
    obtain ⟨hnone, -⟩ | ⟨stop, hstop, -, -, hrun⟩ := hreads [] 0
      { input := Text.ofString "xcaabaac", cursor := 1 } {} rfl (by decide)
    · cases hmatch.symm.trans hnone
    · obtain rfl : 7 = stop := Option.some.inj (hmatch.symm.trans hstop)
      exact hrun
  · have hnomatch : echo.matchAt (Text.ofString "xcaab") 1 = none := by cbv
    obtain ⟨-, hrun⟩ | ⟨stop, hstop, -, -, -⟩ := hreads [] 0
      { input := Text.ofString "xcaab", cursor := 1 } {} rfl (by decide)
    · exact hrun
    · cases hnomatch.symm.trans hstop

end Grammar

end Descent
