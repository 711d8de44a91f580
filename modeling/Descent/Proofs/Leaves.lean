/-
  Descent/Proofs/Leaves.lean
  ==========================
  **Leaves do the same wherever the same is ahead of them.**

  The parsers that read the input look at the characters from the cursor on and at
  nothing else: whether there are any, whether a text stands there, how far a pattern
  goes, and which characters a message shows.  So they respect every coupling whose
  states have the same characters ahead, and that keeps states related that have been
  moved by the same distance (`Coupling.SeesAhead`).

  A pattern is the one leaf that may look further, namely back.  That it does not is
  asked of it where it is used (`Coupling.SameMatches`).
-/
import Descent.Proofs.Ahead
import Descent.Proofs.Simulation

namespace Descent

namespace State

variable {s t : State}

theorem atEnd_iff_of_ahead (h : s.ahead = t.ahead) : s.atEnd = true ↔ t.atEnd = true := by
  rw [atEnd_iff, atEnd_iff, h]

theorem slice_eq_of_ahead (h : s.ahead = t.ahead) (n : Nat) :
    s.input.slice s.cursor (s.cursor + n) = t.input.slice t.cursor (t.cursor + n) := by
  rw [← String.toList_inj, Text.toList_slice, Text.toList_slice, Nat.add_sub_cancel_left,
    Nat.add_sub_cancel_left]
  exact congrArg (List.take n) h

theorem hasAt_iff_of_ahead (h : s.ahead = t.ahead) (cs : List Char) :
    s.input.hasAt cs s.cursor = true ↔ t.input.hasAt cs t.cursor = true := by
  rw [Text.hasAt_iff_isPrefixOf, Text.hasAt_iff_isPrefixOf]
  exact iff_of_eq (congrArg (cs <+: ·) h)

end State

namespace Coupling

open Descent.Parser

/-- Related states have the same characters ahead, and moving both by one distance keeps
    them related. -/
structure SeesAhead (c : Coupling) : Prop where
  ahead_eq {s t : State} (h : c.before s t) : s.ahead = t.ahead
  advance {s t : State} (h : c.before s t) (n : Nat) (v : Value) :
    c.after (s.advance (s.cursor + n) v) (t.advance (t.cursor + n) v)

/-- On related states that are not at the end, the pattern goes equally far. -/
def SameMatches (c : Coupling) (pattern : Pattern) : Prop :=
  ∀ s t, c.before s t → s.atEnd = false → ∀ n,
    pattern.matchAt s.input s.cursor = some (s.cursor + n)
      ↔ pattern.matchAt t.input t.cursor = some (t.cursor + n)

namespace SeesAhead

variable {c : Coupling} (h : c.SeesAhead)

include h

theorem mirrors_literal (text : String) : c.Mirrors (literal text) (literal text) := by
  intro s t hst
  have hahead := h.ahead_eq hst
  refine c.mirrors_guarded hst (.ite (State.atEnd_iff_of_ahead hahead) (fun _ => ?_) fun _ => ?_)
  · exact .pure (c.fail hst .endOfInput fun _ => _)
  refine .ite (State.hasAt_iff_of_ahead hahead _) (fun _ => ?_) fun _ => ?_
  · exact .pure (h.advance hst text.length _)
  · have hupcoming : s.upcoming preview = t.upcoming preview :=
      State.slice_eq_of_ahead hahead preview
    rw [hupcoming]
    exact .pure (c.fail hst .literalMismatch fun _ => _)

theorem mirrors_endOfInput : c.Mirrors endOfInput endOfInput := by
  intro s t hst
  have hahead := h.ahead_eq hst
  refine c.mirrors_guarded hst (.ite (State.atEnd_iff_of_ahead hahead) (fun _ => ?_) fun _ => ?_)
  · exact .pure (c.withResult hst .null)
  · have hupcoming : s.upcoming preview = t.upcoming preview :=
      State.slice_eq_of_ahead hahead preview
    rw [hupcoming]
    exact .pure (c.fail hst .message fun _ => _)

/-- The names are in the messages only, so it is enough that failures under one name are
    related to failures under the other. -/
theorem mirrors_regex_of {name name' : String} {pattern : Pattern}
    (hpattern : c.SameMatches pattern)
    (hend : ∀ s t, c.before s t →
      c.after (s.fail .endOfInput (name ++ ": Received unexpected end of input"))
        (t.fail .endOfInput (name' ++ ": Received unexpected end of input")))
    (hmismatch : ∀ s t, c.before s t →
      c.after (regex.noMatch name s) (regex.noMatch name' t)) :
    c.Mirrors (Parser.regex name pattern) (Parser.regex name' pattern) := by
  intro s t hst
  have hahead := h.ahead_eq hst
  refine c.mirrors_guarded hst (.ite (State.atEnd_iff_of_ahead hahead) (fun _ => ?_) fun hs => ?_)
  · exact .pure (hend s t hst)
  have hwithin : ∀ u : State, ¬u.atEnd = true → u.cursor ≤ u.input.size := by
    intro u hu
    simp only [State.atEnd, decide_eq_true_eq] at hu
    omega
  have ht : ¬t.atEnd = true := fun hend => hs ((State.atEnd_iff_of_ahead hahead).mpr hend)
  have hsame := hpattern s t hst (by simpa using hs)
  cases hmatch : pattern.matchAt s.input s.cursor with
  | none =>
    cases hmatch' : pattern.matchAt t.input t.cursor with
    | none => exact .pure (hmismatch s t hst)
    | some stop =>
      obtain ⟨n, rfl⟩ := Nat.exists_eq_add_of_le (Pattern.matchAt_bounds (hwithin t ht) hmatch').1
      rw [(hsame n).mpr hmatch'] at hmatch
      cases hmatch
  | some stop =>
    obtain ⟨n, rfl⟩ := Nat.exists_eq_add_of_le (Pattern.matchAt_bounds (hwithin s hs) hmatch).1
    rw [(hsame n).mp hmatch]
    refine .ite (by omega) (fun _ => .pure (hmismatch s t hst)) fun _ => ?_
    rw [State.slice_eq_of_ahead hahead n]
    exact .pure (h.advance hst n _)

theorem mirrors_regex (name : String) {pattern : Pattern} (hpattern : c.SameMatches pattern) :
    c.Mirrors (Parser.regex name pattern) (Parser.regex name pattern) :=
  h.mirrors_regex_of hpattern (fun _ _ hst => c.fail hst .endOfInput fun _ => _)
    fun _ _ hst => c.fail hst .classMismatch fun cursor =>
      name ++ ": Unable to match " ++ name ++ " at index " ++ toString cursor

end SeesAhead

theorem SeesAhead.regardless {c : Coupling} (h : c.SeesAhead) : c.regardless.SeesAhead :=
  ⟨h.ahead_eq, h.advance⟩

/-- On the same place in the same text every pattern goes equally far. -/
theorem sameMatches_of_eq {c : Coupling}
    (h : ∀ s t, c.before s t → s.input = t.input ∧ s.cursor = t.cursor) (pattern : Pattern) :
    c.SameMatches pattern := by
  intro s t hst _ n
  obtain ⟨hinput, hcursor⟩ := h s t hst
  rw [hinput, hcursor]

theorem identity_seesAhead : identity.SeesAhead where
  ahead_eq h := by rw [h.1]
  advance h n v := by rw [h.1]; rfl

end Coupling

end Descent
