/-
  Descent/Proofs/Displacement.lean
  ================================
  **Parsing does not depend on where in the text it takes place.**

  Behind a prefix, parsing takes the same turns as without it; cursors and error
  positions are moved by the length of the prefix (`Grammar.position_independent`).
  The text before the cursor is never looked at, except by patterns that look back,
  which are excluded.

  An error that the starting state carries is no part of what is moved: it stays as it
  is as long as parsing succeeds.  A label finds it there, though, and fails with it, at
  the position that it has had all along.  `labelled_literal_fails_behind_prefix` is the
  smallest case.
-/
import Descent.Proofs.Reports
import Descent.Proofs.Rewriting

namespace Descent

/-! ### Texts and patterns -/

namespace Text

def append (u t : Text) : Text := ⟨u.chars ++ t.chars⟩

@[simp] theorem toList_append (u t : Text) : (u.append t).toList = u.toList ++ t.toList := by
  simp [append, toList]

theorem drop_append (u t : Text) (c : Nat) :
    (u.append t).toList.drop (u.size + c) = t.toList.drop c := by
  rw [toList_append, ← length_toList, List.drop_length_add_append]

end Text

/-- How far the pattern goes is decided by the characters from there on, wherever there is
    one. -/
def Pattern.LooksAhead (p : Pattern) : Prop :=
  ∀ (t u : Text) (i j n : Nat), t.toList.drop i = u.toList.drop j → i < t.size →
    p.matchAt t i = some (i + n) → p.matchAt u j = some (j + n)

theorem Pattern.looksAhead_runOf (source : String) (items : List ClassItem) :
    (runOf source items).LooksAhead := by
  intro t u i j n hahead _ hmatch
  have hlength : t.runLength (CharClass.contains { items }) i
      = u.runLength (CharClass.contains { items }) j := by
    rw [Text.runLength, Text.runLength, hahead]
  rw [matchAt_runOf, hlength] at hmatch
  rw [matchAt_runOf]
  split at hmatch
  · cases hmatch
  · rename_i hzero
    rw [if_neg hzero]
    simp only [Option.some.injEq] at hmatch ⊢
    omega

theorem Pattern.looksAhead_letters : letters.LooksAhead := looksAhead_runOf _ _

theorem Pattern.looksAhead_digits : digits.LooksAhead := looksAhead_runOf _ _

/-! ### Displaced states -/

/-- The error is the one that was there, in other words at most. -/
def ParseError.Rewords (x : ParseError) (carried : Option ParseError) : Prop :=
  ∃ e, carried = some e ∧ x.kind = e.kind ∧ x.position = e.position

/-- The first state is the second one, moved by `d` characters.  States that have not
    failed carry the errors `a` and `b`.  Of two that have failed, one has the error of
    the other, moved as well; or there are labels and both have what they carried. -/
structure State.Displaced (d : Int) (labels : Bool) (a b : Option ParseError) (s t : State) :
    Prop where
  ahead : s.ahead = t.ahead
  cursor : (s.cursor : Int) = t.cursor + d
  result : s.result = t.result
  isError : s.isError = t.isError
  carried (ok : s.isError = false) : s.error = a ∧ t.error = b
  report (failed : s.isError = true) : ∃ x y, s.error = some x ∧ t.error = some y ∧
    (x.kind = y.kind ∧ x.position = y.position + d ∨
      labels = true ∧ x.Rewords a ∧ y.Rewords b)

namespace State.Displaced

variable {d : Int} {labels : Bool} {a b : Option ParseError} {s t : State}

theorem symm (h : s.Displaced d labels a b t) : t.Displaced (-d) labels b a s where
  ahead := h.ahead.symm
  cursor := by have := h.cursor; omega
  result := h.result.symm
  isError := h.isError.symm
  carried ok := (h.carried (h.isError.trans ok)).symm
  report failed := by
    obtain ⟨x, y, hx, hy, hreport⟩ := h.report (h.isError.trans failed)
    refine ⟨y, x, hy, hx, ?_⟩
    rcases hreport with ⟨hkind, hposition⟩ | ⟨hlabels, hxa, hyb⟩
    · exact .inl ⟨hkind.symm, by omega⟩
    · exact .inr ⟨hlabels, hyb, hxa⟩

theorem withResult (h : s.Displaced d labels a b t) (v : Value) :
    (s.withResult v).Displaced d labels a b (t.withResult v) :=
  ⟨h.ahead, h.cursor, rfl, h.isError, h.carried, h.report⟩

theorem fail (h : s.Displaced d labels a b t) (kind : ErrorKind) (message message' : String) :
    (s.fail kind message).Displaced d labels a b (t.fail kind message') where
  ahead := h.ahead
  cursor := h.cursor
  result := h.result
  isError := rfl
  carried := nofun
  report _ := ⟨_, _, rfl, rfl, .inl ⟨rfl, h.cursor⟩⟩

theorem advance (h : s.Displaced d labels a b t) (n : Nat) (v : Value) :
    (s.advance (s.cursor + n) v).Displaced d labels a b (t.advance (t.cursor + n) v) where
  ahead := by
    have hdrop := congrArg (List.drop n) h.ahead
    rwa [State.ahead, State.ahead, List.drop_drop, List.drop_drop] at hdrop
  cursor := by
    have := h.cursor
    simp only [State.advance]
    omega
  result := rfl
  isError := h.isError
  carried := h.carried
  report := h.report

/-- A label finds other words for the error of a failure, or for what a success carries. -/
theorem reword (hlabels : labels = true) (h : s.Displaced d labels a b t) {x y : ParseError}
    (hx : s.error = some x) (hy : t.error = some y) (message message' : String) :
    (s.withError (some { x with message })).Displaced d labels a b
      (t.withError (some { y with message := message' })) where
  ahead := h.ahead
  cursor := h.cursor
  result := h.result
  isError := rfl
  carried := nofun
  report _ := by
    refine ⟨_, _, rfl, rfl, ?_⟩
    cases hok : s.isError with
    | false =>
      obtain ⟨ha, hb⟩ := h.carried hok
      exact .inr ⟨hlabels, ⟨x, ha ▸ hx, rfl, rfl⟩, ⟨y, hb ▸ hy, rfl, rfl⟩⟩
    | true =>
      obtain ⟨x', y', hx', hy', hreport⟩ := h.report hok
      cases hx.symm.trans hx'
      cases hy.symm.trans hy'
      exact hreport

end State.Displaced

namespace Coupling

/-- Evaluations at places that are `d` characters apart, carrying the errors `a` and `b`. -/
def displaced (d : Int) (labels : Bool) (a b : Option ParseError) : Coupling where
  journals j k := j.calls = k.calls
  before s t := s.Displaced d labels a b t ∧ s.isError = false
  after := State.Displaced d labels a b
  perform h e := Journal.calls_perform h e
  writeLeft h _ := h
  writeRight h _ := h
  before_ok h := ⟨h.2, h.1.isError ▸ h.2⟩
  cursor_iff h h' := by
    have hs := h.1.cursor
    have ht := h'.1.cursor
    omega
  withResult h v := h.1.withResult v
  fail h kind message := h.1.fail kind _ _
  isError_eq h := h.isError
  result_eq h _ := h.result
  goesOn h ok := ⟨h, ok⟩

variable {d : Int} {labels : Bool} {a b : Option ParseError}

theorem displaced_seesAhead : (displaced d labels a b).SeesAhead where
  ahead_eq h := h.1.ahead
  advance h n v := h.1.advance n v

theorem displaced_sameMatches {pattern : Pattern} (h : pattern.LooksAhead) :
    (displaced d labels a b).SameMatches pattern := by
  intro s t hst hs n
  have hahead : s.input.toList.drop s.cursor = t.input.toList.drop t.cursor := hst.1.ahead
  have ht : t.atEnd = false := by
    rw [← Bool.not_eq_true, ← State.atEnd_iff_of_ahead hst.1.ahead, hs]
    exact Bool.false_ne_true
  simp only [State.atEnd, decide_eq_false_iff_not, Nat.not_le] at hs ht
  constructor
  · exact h _ _ _ _ n hahead hs
  · exact h _ _ _ _ n hahead.symm ht

/-- A handler that only finds other words finds them for both errors, or is not asked. -/
theorem displaced_mirrors_errorMap (hlabels : labels = true) (hab : a.isSome = b.isSome)
    {handler : ParseError → Nat → Response Revision}
    (hwords : ∀ e cursor, ∃ text, handler e cursor = pure (.message text)) {p q : Parser}
    (h : (displaced d labels a b).Mirrors p q) :
    (displaced d labels a b).Mirrors (p.errorMap fun e cursor => (handler e cursor).run)
      (q.errorMap fun e cursor => (handler e cursor).run) := by
  intro s t hst
  refine .bind (h s t hst) fun s' t' hafter => ?_
  have hboth : s'.error.isSome = t'.error.isSome := by
    cases hok : s'.isError with
    | false =>
      obtain ⟨hs, ht⟩ := hafter.carried hok
      rw [hs, ht, hab]
    | true =>
      obtain ⟨x, y, hs, ht, -⟩ := hafter.report hok
      rw [hs, ht]
      rfl
  cases hs : s'.error with
  | none =>
    have ht : t'.error = none := by simpa [hs] using hboth.symm
    rw [ht]
    exact .pure hafter
  | some x =>
    obtain ⟨y, ht⟩ : ∃ y, t'.error = some y := by
      rw [← Option.isSome_iff_exists, ← hboth, hs]
      rfl
    obtain ⟨text, htext⟩ := hwords x s'.cursor
    obtain ⟨text', htext'⟩ := hwords y t'.cursor
    rw [ht]
    simp only [htext, htext']
    exact .pure (.reword hlabels hafter hs ht text text')

end Coupling

namespace Grammar

/-- The node looks at nothing but what is ahead of it.  It is no user-written step, and its
    pattern does not look back.  A handler of errors does what a label does, that is, find
    other words, and there is one only if `labels` says so. -/
def Placeless (labels : Bool) : Grammar → Prop
  | .custom _ _ => False
  | .regex _ pattern => pattern.LooksAhead
  | .errorMap _ handler =>
    labels = true ∧ ∀ e cursor, ∃ text, handler e cursor = pure (.message text)
  | _ => True

@[simp] theorem everywhere_placeless_label {body : Grammar} {expected : String} :
    Everywhere (Placeless true) (label body expected) ↔ Everywhere (Placeless true) body := by
  rw [label, everywhere_errorMap]
  exact and_iff_right ⟨rfl, fun e cursor => ⟨_, rfl⟩⟩

variable {rules : Rules} {g : Grammar} {labels : Bool} {a b : Option ParseError}

theorem Placeless.mirroredAt {node : Grammar} {d : Int} (h : node.Placeless labels)
    (hab : labels = true → a.isSome = b.isSome) :
    node.MirroredAt (Coupling.displaced d labels a b) := by
  cases node with
  | custom name step => exact h.elim
  | literal text => exact Coupling.displaced_seesAhead.mirrors_literal text
  | regex name pattern =>
    exact Coupling.displaced_seesAhead.mirrors_regex name (Coupling.displaced_sameMatches h)
  | endOfInput => exact Coupling.displaced_seesAhead.mirrors_endOfInput
  | trace label =>
    exact (Coupling.displaced d labels a b).mirrors_trace label label fun s t hst => hst.1
  | errorMap body handler =>
    exact fun p q => Coupling.displaced_mirrors_errorMap h.1 (hab h.1) h.2
  | _ => exact True.intro

/-- **Parsing is independent of the position.**  Behind a prefix `u` a grammar does what it
    does without it.  Both return, or raise one and the same fault, after the same calls,
    or neither has an answer.  Of the states returned both or none have failed; they have
    one result, and their cursors are as far apart as the prefix is long.  So are the
    positions of their errors, which are of one kind.  The exception is a label that
    takes the errors `a` and `b` that the starting states carry for failures; if there
    are labels, the states have to carry an error both, or both none. -/
theorem position_independent (hrules : rules.Everywhere (Placeless labels))
    (hg : Everywhere (Placeless labels) g) (hab : labels = true → a.isSome = b.isSome)
    (u t : Text) (c : Nat) (v : Value) {j k : Journal} (hjk : j.calls = k.calls) :
    ∃ n, ∀ fuel, n ≤ fuel →
      (g.parser rules fuel
          { input := u.append t, cursor := u.size + c, result := v, error := a } j).Paired
        (fun j k => j.calls = k.calls) (State.Displaced u.size labels a b)
        (g.parser rules fuel { input := t, cursor := c, result := v, error := b } k) := by
  have hforth : ∀ fuel, (Coupling.displaced u.size labels a b).Mirrors (g.parser rules fuel)
      (g.meaning rules) :=
    parser_mirrors_meaning_of (fun _ h => h.mirroredAt hab) hrules hg
  have hback : ∀ fuel, (Coupling.displaced (-u.size) labels b a).Mirrors (g.parser rules fuel)
      (g.meaning rules) :=
    parser_mirrors_meaning_of (fun _ h => h.mirroredAt fun hlabels => (hab hlabels).symm) hrules hg
  have hstart : State.Displaced u.size labels a b
      { input := u.append t, cursor := u.size + c, result := v, error := a }
      { input := t, cursor := c, result := v, error := b } := by
    refine ⟨Text.drop_append u t c, ?_, rfl, rfl, fun _ => ⟨rfl, rfl⟩, nofun⟩
    simp only
    omega
  exact exists_fuel_paired hforth hback ⟨hstart, rfl⟩ ⟨hstart.symm, rfl⟩ hjk hjk.symm

/-! ### Settings behind a prefix -/

theorem settings_placeless : settings.Everywhere (Placeless true) := by
  apply Rules.everywhere_of_mem
  simp [settings, letters, digits, ref, Placeless, Pattern.looksAhead_letters]
  intro v
  split <;> simp [Placeless, Pattern.looksAhead_digits]

/-- A number is missing, wherever the setting stands. -/
theorem setting_position_independent :
    settings.Everywhere (Placeless true) ∧
      Everywhere (Placeless true) (sequence [ref "setting", endOfInput]) ∧
      ∃ n, ∀ fuel, n ≤ fuel →
        ((sequence [ref "setting", endOfInput]).parser settings fuel
          { input := (Text.ofString "y=1;").append (Text.ofString "x=-"), cursor := 4 } {}).Paired
          (fun j k => j.calls = k.calls) (State.Displaced 4 true none none)
          ((sequence [ref "setting", endOfInput]).parser settings fuel
            { input := Text.ofString "x=-" } { debug := true }) := by
  have hg : Everywhere (Placeless true) (sequence [ref "setting", endOfInput]) := by
    simp [ref, Placeless]
  exact ⟨settings_placeless, hg, position_independent settings_placeless hg (fun _ => rfl)
    (Text.ofString "y=1;") (Text.ofString "x=-") 0 .null rfl⟩

/-! ### What a label makes of an error that is carried -/

/-- A failure at the beginning of a text. -/
def earlier : ParseError := { kind := .message, message := "earlier failure", position := 0 }

/-- The literal stands at the cursor.  Without an error its label lets it pass.  With one
    the label fails, and at the position of the error, behind a prefix as without it. -/
theorem labelled_literal_fails_behind_prefix :
    ∃ s t t',
      ((literal "a").label "x").parser [] 2
          { input := (Text.ofString "b").append (Text.ofString "a"), cursor := 1,
            error := some earlier } {} = .returned s {} ∧
        ((literal "a").label "x").parser [] 2 { input := Text.ofString "a" } {}
          = .returned t {} ∧
        ((literal "a").label "x").parser [] 2
            { input := Text.ofString "a", error := some earlier } {} = .returned t' {} ∧
        s.isError = true ∧ t.isError = false ∧ t'.isError = true ∧
        s.error.map (·.position) = some 0 ∧ t'.error.map (·.position) = some 0 :=
  ⟨_, _, _, rfl, rfl, rfl, rfl, rfl, rfl, rfl, rfl⟩

end Grammar

end Descent
