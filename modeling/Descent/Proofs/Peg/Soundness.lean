/-
  Descent/Proofs/Peg/Soundness.lean
  =================================
  **What the engine answers is derived.**

  `Explains table e s t` says that a derivation of `e` accounts for the state `t`
  that was reached from `s`: a match where `t` has not failed, and a failure where
  it has.  Each operation on parsers passes this on from the parsers it is applied
  to, and so a grammar has it for every amount of fuel (`parser_sound`).

  A state that has not failed carries the same error as the state before it.  So
  whether an error is carried is settled by the state that a parse starts from.
-/
import Descent.Proofs.Ahead
import Descent.Proofs.Peg.Translation

namespace Descent

namespace Peg

/-- A derivation accounts for the state `t` that was reached from `s`. -/
structure Explains (table : String → Option Peg) (e : Peg) (s t : State) : Prop where
  input : t.input = s.input
  failed : t.isError = true → Derives table s.input e s.cursor none
  matched : t.isError = false →
    t.error = s.error ∧ Derives table s.input e s.cursor (some t.cursor)

namespace Explains

variable {table : String → Option Peg} {e : Peg} {s t : State}

theorem of_failed (hinput : t.input = s.input) (ht : t.isError = true)
    (h : Derives table s.input e s.cursor none) : Explains table e s t := by
  refine ⟨hinput, fun _ => h, fun hok => ?_⟩
  rw [ht] at hok
  cases hok

theorem of_matched (hinput : t.input = s.input) (ht : t.isError = false)
    (herror : t.error = s.error) (h : Derives table s.input e s.cursor (some t.cursor)) :
    Explains table e s t := by
  refine ⟨hinput, fun hfailed => ?_, fun _ => ⟨herror, h⟩⟩
  rw [ht] at hfailed
  cases hfailed

theorem seq {f : Peg} {u : State} (ht : Explains table e s t) (hok : t.isError = false)
    (hu : Explains table f t u) : Explains table (.seq e f) s u := by
  obtain ⟨herror, hmatch⟩ := ht.matched hok
  refine ⟨hu.input.trans ht.input, fun hfailed => ?_, fun huok => ?_⟩
  · have hfails := hu.failed hfailed
    rw [ht.input] at hfails
    exact .seq hmatch hfails
  · obtain ⟨huerror, humatch⟩ := hu.matched huok
    rw [ht.input] at humatch
    exact ⟨huerror.trans herror, .seq hmatch humatch⟩

end Explains

/-- What the parser returns from a state that has not failed is accounted for, as far
    as states are concerned that carry an error, or that carry none. -/
def Sound (table : String → Option Peg) (carries : Bool) (e : Peg) (p : Parser) : Prop :=
  ∀ s : State, s.isError = false → s.error.isSome = carries → (p s).Ensures (Explains table e s)

namespace Sound

open Run (Ensures)

variable {table : String → Option Peg} {carries : Bool} {e f : Peg} {p q : Parser}

theorem exhausted : Sound table carries e fun _ => Run.exhausted := fun _ _ _ => .exhausted

/-! ### Leaves -/

theorem succeed (value : Value) : Sound table carries .empty (Parser.succeed value) := by
  intro s hs _
  rw [Parser.succeed, hs, if_neg Bool.false_ne_true]
  exact .pure (.of_matched rfl hs rfl (.empty s.cursor))

theorem fail (message : String) : Sound table carries .fail (Parser.fail message) := by
  intro s hs _
  rw [Parser.fail, hs, if_neg Bool.false_ne_true]
  exact .pure (.of_failed rfl rfl (.fail s.cursor))

theorem literal {text : String} (htext : text ≠ "") :
    Sound table carries (.literal text.toList) (Parser.literal text) := by
  intro s hs _
  by_cases hstands : text.toList <+: s.ahead
  · obtain ⟨rest, hrest⟩ := hstands
    have hmatch : Derives table s.input (.literal text.toList) s.cursor
        (some (s.cursor + text.toList.length)) := .literal ⟨rest, hrest⟩
    rw [String.length_toList] at hmatch
    rw [Parser.literal_here htext hs hrest.symm]
    exact .pure (.of_matched rfl hs rfl hmatch)
  · obtain ⟨kind, message, hfails⟩ := Parser.literal_elsewhere hs hstands
    rw [hfails]
    exact .pure (.of_failed rfl rfl (.literalFails hstands))

theorem endOfInput : Sound table carries (.not .any) Parser.endOfInput := by
  intro s hs _
  cases hone : oneAt s.input (fun _ => true) s.cursor with
  | true =>
    obtain ⟨kind, message, hfails⟩ :=
      Parser.endOfInput_elsewhere hs ((oneAt_any s.input s.cursor).mp hone)
    rw [hfails]
    exact .pure (.of_failed rfl rfl (.notFails (.one hone)))
  | false =>
    have hahead : s.ahead = [] := by
      by_cases hnil : s.ahead = []
      · exact hnil
      · rw [(oneAt_any s.input s.cursor).mpr hnil] at hone
        cases hone
    rw [Parser.endOfInput_here hs hahead]
    exact .pure (.of_matched rfl hs rfl (.not (.oneFails hone)))

theorem run (name source : String) (items : List Pattern.ClassItem) :
    Sound table carries (.plus (.one (Pattern.CharClass.contains { items })))
      (Parser.regex name (Pattern.runOf source items)) := by
  intro s hs _
  have hderives := derives_plus_one table s.input (Pattern.CharClass.contains { items }) s.cursor
  have hlength : s.input.runLength (Pattern.CharClass.contains { items }) s.cursor
      = (s.ahead.takeWhile (Pattern.CharClass.contains { items })).length := rfl
  by_cases hnil : s.ahead.takeWhile (Pattern.CharClass.contains { items }) = []
  · obtain ⟨kind, message, hfails⟩ : ∃ kind message,
        Parser.regex name (Pattern.runOf source items) s = pure (s.fail kind message) :=
      Parser.regex_run_elsewhere rfl hs hnil
    rw [hfails]
    rw [hlength, hnil] at hderives
    exact .pure (.of_failed rfl rfl hderives)
  · rw [Parser.regex_run_here rfl hs rfl hnil]
    rw [if_neg (by rw [hlength]; simpa using hnil), hlength] at hderives
    exact .pure (.of_matched rfl hs rfl hderives)

/-! ### One parser -/

theorem map {f : Value → Run Value} (hp : Sound table carries e p) :
    Sound table carries e (p.map f) := by
  intro s hs hcarries
  refine .bind (hp s hs hcarries) fun t ht => .ite (fun _ => .pure ht) fun hok => ?_
  have hok : t.isError = false := by simpa using hok
  obtain ⟨herror, hmatch⟩ := ht.matched hok
  exact .bind (.trivial _) fun v _ => .pure (.of_matched ht.input hok herror hmatch)

/-- A success that carries an error is turned into a failure. -/
theorem errorMap {handler : ParseError → Nat → Run Revision} (hp : Sound table carries e p) :
    Sound table carries (if carries then .seq e .fail else e) (p.errorMap handler) := by
  intro s hs hcarries
  have hfails : ∀ {input i}, Derives table input e i none →
      Derives table input (if carries then .seq e .fail else e) i none := by
    intro input i h
    cases carries with
    | true => exact .seqFails h
    | false => exact h
  refine .bind (hp s hs hcarries) fun t ht => ?_
  cases herror : t.error with
  | none =>
    refine .pure ⟨ht.input, fun hfailed => hfails (ht.failed hfailed), fun hok => ?_⟩
    obtain ⟨hkept, hmatch⟩ := ht.matched hok
    rw [hkept] at herror
    rw [herror] at hcarries
    subst hcarries
    exact ⟨hkept, hmatch⟩
  | some err =>
    refine .bind (.trivial _) fun r _ => .pure (.of_failed ht.input rfl ?_)
    cases hcase : t.isError with
    | true => exact hfails (ht.failed hcase)
    | false =>
      obtain ⟨hkept, hmatch⟩ := ht.matched hcase
      rw [← hkept, herror] at hcarries
      subst hcarries
      exact .seq hmatch (.fail _)

theorem lazy {touch : Run Unit} (hp : Sound table carries e p) :
    Sound table carries e (Parser.lazy do
      touch
      pure p) := by
  intro s hs hcarries
  refine .bind (.bind (.trivial _) fun _ _ => .pure hp) fun q hq => hq s hs hcarries

/-! ### Lists of parsers -/

section Lists

variable {ι : Type} {f : ι → Parser} {peg : ι → Peg}

theorem sequenceFrom (l : List ι) (h : ∀ i ∈ l, Sound table carries (peg i) (f i))
    (results : List Value) :
    Sound table carries (.concat (l.map peg)) (Parser.sequenceFrom (l.map f) results) := by
  induction l generalizing results with
  | nil =>
    intro s hs _
    exact .pure (.of_matched rfl hs rfl (.empty s.cursor))
  | cons i l ih =>
    intro s hs hcarries
    refine .bind (h i List.mem_cons_self s hs hcarries) fun t ht => .ite (fun hfailed => ?_) ?_
    · exact .pure (.of_failed ht.input hfailed (.seqFails (ht.failed hfailed)))
    · intro hok
      have hok : t.isError = false := by simpa using hok
      have hkept : t.error.isSome = carries := by rw [(ht.matched hok).1, hcarries]
      have hrest := ih (fun k hk => h k (List.mem_cons_of_mem i hk)) (t.result :: results) t hok hkept
      exact hrest.mono fun u hu => ht.seq hok hu

theorem sequence {l : List ι} (h : ∀ i ∈ l, Sound table carries (peg i) (f i)) :
    Sound table carries (.concat (l.map peg)) (Parser.sequence (l.map f)) := by
  intro s hs hcarries
  rw [Parser.sequence, hs, if_neg Bool.false_ne_true]
  exact sequenceFrom l h [] s hs hcarries

theorem choiceFrom (l : List ι) (h : ∀ i ∈ l, Sound table carries (peg i) (f i)) :
    Sound table carries (.firstOf (l.map peg)) (Parser.choiceFrom (l.map f)) := by
  induction l with
  | nil =>
    intro s hs _
    exact .pure (.of_failed rfl rfl (.fail s.cursor))
  | cons i l ih =>
    intro s hs hcarries
    refine .bind (h i List.mem_cons_self s hs hcarries) fun t ht => .ite (fun hfailed => ?_) ?_
    · have hrest := ih (fun k hk => h k (List.mem_cons_of_mem i hk)) s hs hcarries
      refine hrest.mono fun u hu => ⟨hu.input, fun hufailed => ?_, fun huok => ?_⟩
      · exact .altSecond (ht.failed hfailed) (hu.failed hufailed)
      · exact ⟨(hu.matched huok).1, .altSecond (ht.failed hfailed) (hu.matched huok).2⟩
    · intro hok
      have hok : t.isError = false := by simpa using hok
      obtain ⟨herror, hmatch⟩ := ht.matched hok
      exact .pure (.of_matched ht.input hok herror (.altFirst hmatch))

theorem choice {l : List ι} (h : ∀ i ∈ l, Sound table carries (peg i) (f i)) :
    Sound table carries (.firstOf (l.map peg)) (Parser.choice (l.map f)) := by
  intro s hs hcarries
  rw [Parser.choice, hs, if_neg Bool.false_ne_true]
  exact choiceFrom l h s hs hcarries

end Lists

/-! ### Loops -/

/-- The parser moves the cursor whenever it succeeds. -/
def Advances (p : Parser) : Prop :=
  ∀ s : State, s.isError = false →
    (p s).Ensures fun t => t.isError = false → s.cursor < t.cursor

/-- A loop that stops at once stops where its body fails; any other has made one
    round, and then as many as a star makes. -/
theorem collect (hp : Sound table carries e p) (hadvances : Advances p) (fuel : Nat)
    (results : List Value) (s : State) (hs : s.isError = false)
    (hcarries : s.error.isSome = carries) :
    (Parser.collect p fuel results s).Ensures fun harvest =>
      (harvest.results = results.reverse ∧ harvest.state = s ∧
        Derives table s.input e s.cursor none) ∨
      (results.length < harvest.results.length ∧ harvest.state.isError = false ∧
        ∃ t : State, t.isError = false ∧ Explains table e s t ∧
          Explains table (.star e) t harvest.state) := by
  induction fuel generalizing results s with
  | zero => exact .exhausted
  | succ fuel ih =>
    have hstep : (p s).Ensures fun t =>
        Explains table e s t ∧ (t.isError = false → s.cursor < t.cursor) := fun j t k h =>
      ⟨hp s hs hcarries j t k h, hadvances s hs j t k h⟩
    refine .bind hstep fun t ⟨ht, hmoves⟩ => .ite (fun hfailed => ?_) fun hok => ?_
    · exact .pure (.inl ⟨rfl, rfl, ht.failed hfailed⟩)
    have hok : t.isError = false := by simpa using hok
    refine .ite (fun hstill => absurd hstill (Nat.ne_of_gt (hmoves hok))) fun _ => ?_
    have hkept : t.error.isSome = carries := by rw [(ht.matched hok).1, hcarries]
    refine (ih (t.result :: results) t hok hkept).mono fun harvest hcases => .inr ?_
    rcases hcases with ⟨hresults, hstate, hstop⟩ | ⟨hlength, hend, u, hu, htu, hrest⟩
    · refine ⟨by simp [hresults], hstate ▸ hok, t, hok, ht, ?_⟩
      rw [hstate]
      exact .of_matched rfl hok rfl (.starDone hstop)
    · refine ⟨Nat.lt_of_succ_lt hlength, hend, t, hok, ht, ?_⟩
      obtain ⟨huerror, humatch⟩ := htu.matched hu
      obtain ⟨herror, hmatch⟩ := hrest.matched hend
      rw [htu.input] at hmatch
      exact .of_matched (hrest.input.trans htu.input) hend (herror.trans huerror)
        (.starMore humatch hmatch)

theorem many (hp : Sound table carries e p) (hadvances : Advances p) (fuel : Nat) :
    Sound table carries (.star e) (Parser.many fuel p) := by
  intro s hs hcarries
  rw [Parser.many, hs, if_neg Bool.false_ne_true]
  refine .bind (collect hp hadvances fuel [] s hs hcarries) fun harvest hcases => .pure ?_
  rcases hcases with ⟨-, hstate, hstop⟩ | ⟨-, hend, t, hok, ht, hrest⟩
  · rw [hstate]
    exact .of_matched rfl hs rfl (.starDone hstop)
  · obtain ⟨hterror, htmatch⟩ := ht.matched hok
    obtain ⟨herror, hmatch⟩ := hrest.matched hend
    rw [ht.input] at hmatch
    exact .of_matched (hrest.input.trans ht.input) hend (herror.trans hterror)
      (.starMore htmatch hmatch)

theorem many1 (hp : Sound table carries e p) (hadvances : Advances p) (fuel : Nat) :
    Sound table carries (.plus e) (Parser.many1 fuel p) := by
  intro s hs hcarries
  rw [Parser.many1, hs, if_neg Bool.false_ne_true]
  refine .bind (collect hp hadvances fuel [] s hs hcarries) fun harvest hcases => ?_
  rcases hcases with ⟨hresults, -, hstop⟩ | ⟨hlength, hend, t, hok, ht, hrest⟩
  · rw [hresults]
    exact .pure (.of_failed rfl rfl (.seqFails hstop))
  · have hsome : harvest.results.isEmpty = false := by
      cases hresults : harvest.results with
      | nil => rw [hresults] at hlength; cases hlength
      | cons v vs => rfl
    rw [hsome, if_neg Bool.false_ne_true]
    have hboth := ht.seq hok hrest
    obtain ⟨herror, hmatch⟩ := hboth.matched hend
    exact .pure (.of_matched hboth.input hend herror hmatch)

/-- A loop over separated values that stops at once stops where there is no value; any
    other has found one, then rounds of a separator and a value, and then it may have
    kept one more separator. -/
theorem collectSeparated (hp : Sound table carries e p) (hq : Sound table carries f q)
    (hadvances : Advances p) (fuel : Nat) (results : List Value) (s : State)
    (hs : s.isError = false) (hcarries : s.error.isSome = carries) :
    (Parser.collectSeparated p q fuel results s).Ensures fun harvest =>
      (harvest.results = results.reverse ∧ harvest.state = s ∧
        Derives table s.input f s.cursor none) ∨
      (results.length < harvest.results.length ∧ harvest.state.isError = false ∧
        ∃ t : State, t.isError = false ∧ Explains table f s t ∧
          Explains table (.seq (.star (.seq e f)) (.opt e)) t harvest.state) := by
  induction fuel generalizing results s with
  | zero => exact .exhausted
  | succ fuel ih =>
    refine .bind (hq s hs hcarries) fun t ht => .ite (fun hfailed => ?_) fun hok => ?_
    · exact .pure (.inl ⟨rfl, rfl, ht.failed hfailed⟩)
    have hok : t.isError = false := by simpa using hok
    have hkept : t.error.isSome = carries := by rw [(ht.matched hok).1, hcarries]
    have hstep : (p t).Ensures fun u =>
        Explains table e t u ∧ (u.isError = false → t.cursor < u.cursor) := fun j u k h =>
      ⟨hp t hok hkept j u k h, hadvances t hok j u k h⟩
    refine .bind hstep fun u ⟨hu, hmoves⟩ => ?_
    cases huok : u.isError with
    | true =>
      rw [Bool.true_or, if_pos rfl]
      have hdone := hu.failed huok
      refine .pure (.inr ⟨by simp, hok, t, hok, ht, .of_matched rfl hok rfl ?_⟩)
      exact .seq (.starDone (.seqFails hdone)) (.altSecond hdone (.empty _))
    | false =>
      have hle := (ht.matched hok).2.le
      have hmoved : (u.cursor == s.cursor) = false := by
        have hlt := hmoves huok
        simp only [beq_eq_false_iff_ne]
        omega
      obtain ⟨huerror, humatch⟩ := hu.matched huok
      rw [Bool.false_or, hmoved, if_neg Bool.false_ne_true]
      refine (ih (t.result :: results) u huok (by rw [huerror, hkept])).mono fun harvest hcases => ?_
      refine .inr ?_
      rcases hcases with ⟨hresults, hstate, hstop⟩ | ⟨hlength, hend, w, hw, huw, hrest⟩
      · -- No value behind the separator, which is kept all the same.
        rw [hu.input] at hstop
        refine ⟨by simp [hresults], hstate ▸ huok, t, hok, ht, ?_⟩
        rw [hstate]
        refine .of_matched hu.input huok huerror ?_
        exact .seq (.starDone (.seq humatch hstop)) (.altFirst humatch)
      · obtain ⟨hwerror, hround⟩ := (hu.seq huok huw).matched hw
        obtain ⟨herror, hmatch⟩ := hrest.matched hend
        rw [huw.input, hu.input] at hmatch
        refine ⟨Nat.lt_of_succ_lt hlength, hend, t, hok, ht, ?_⟩
        exact .of_matched (hrest.input.trans (huw.input.trans hu.input)) hend
          (herror.trans hwerror) (.star_seq_more hround hmatch)

theorem sepBy1 (hp : Sound table carries e p) (hq : Sound table carries f q)
    (hadvances : Advances p) (fuel : Nat) :
    Sound table carries (.separated e f) (Parser.sepBy1 fuel p q) := by
  intro s hs hcarries
  rw [Parser.sepBy1, hs, if_neg Bool.false_ne_true]
  refine .bind (collectSeparated hp hq hadvances fuel [] s hs hcarries) fun harvest hcases => ?_
  rcases hcases with ⟨hresults, -, hstop⟩ | ⟨hlength, hend, t, hok, ht, hrest⟩
  · rw [hresults]
    exact .pure (.of_failed rfl rfl (.seqFails hstop))
  · have hsome : harvest.results.isEmpty = false := by
      cases hresults : harvest.results with
      | nil => rw [hresults] at hlength; cases hlength
      | cons v vs => rfl
    rw [hsome, if_neg Bool.false_ne_true]
    have hboth := ht.seq hok hrest
    obtain ⟨herror, hmatch⟩ := hboth.matched hend
    exact .pure (.of_matched hboth.input hend herror hmatch)

theorem sepBy (hp : Sound table carries e p) (hq : Sound table carries f q)
    (hadvances : Advances p) (fuel : Nat) :
    Sound table carries (.opt (.separated e f)) (Parser.sepBy fuel p q) := by
  intro s hs hcarries
  rw [Parser.sepBy, hs, if_neg Bool.false_ne_true]
  refine .bind (collectSeparated hp hq hadvances fuel [] s hs hcarries) fun harvest hcases => .pure ?_
  rcases hcases with ⟨-, hstate, hstop⟩ | ⟨-, hend, t, hok, ht, hrest⟩
  · rw [hstate]
    exact .of_matched rfl hs rfl (.altSecond (.seqFails hstop) (.empty _))
  · have hboth := ht.seq hok hrest
    obtain ⟨herror, hmatch⟩ := hboth.matched hend
    exact .of_matched hboth.input hend herror (.altFirst hmatch)

end Sound

end Peg

namespace Grammar

open Peg (Sound)

variable {rules : Rules} {carries : Bool}

theorem toPegs_eq_map (carries : Bool) (gs : List Grammar) :
    toPegs carries gs = gs.map (toPeg carries) := by
  induction gs with
  | nil => rw [toPegs, List.map_nil]
  | cons g gs ih => rw [toPegs, ih, List.map_cons]

theorem Advancing.parser {g : Grammar} (h : Advancing rules g) (fuel : Nat) :
    Sound.Advances (g.parser rules fuel) := by
  intro s hs
  exact (h s hs).of_extends (parser_extends_meaning rules fuel g s)

/-- **Whatever the engine answers, with any amount of fuel, is derived.** -/
theorem parser_sound (hrules : ∀ name body, rules.lookup name = some body → IsPeg rules body)
    (fuel : Nat) {g : Grammar} (hg : IsPeg rules g) :
    Sound (pegTable rules carries) carries (toPeg carries g) (g.parser rules fuel) := by
  induction fuel generalizing g with
  | zero => exact .exhausted
  | succ fuel ih =>
    cases hg with
    | literal htext => exact .literal htext
    | run name source items => exact .run name source items
    | succeed value => exact .succeed value
    | fail message => exact .fail message
    | endOfInput => exact .endOfInput
    | @sequence parts hparts =>
      rw [toPeg, toPegs_eq_map]
      exact .sequence fun p hp => ih (hparts p hp)
    | @choice alternatives hparts =>
      rw [toPeg, toPegs_eq_map]
      exact .choice fun p hp => ih (hparts p hp)
    | many hitem hadvances => exact .many (ih hitem) (hadvances.parser fuel) fuel
    | many1 hitem hadvances => exact .many1 (ih hitem) (hadvances.parser fuel) fuel
    | sepBy hseparator hvalue hadvances =>
      exact .sepBy (ih hseparator) (ih hvalue) (hadvances.parser fuel) fuel
    | sepBy1 hseparator hvalue hadvances =>
      exact .sepBy1 (ih hseparator) (ih hvalue) (hadvances.parser fuel) fuel
    | map hbody hmaps =>
      simp only [parser]
      exact .map (ih hbody)
    | errorMap hbody htotal =>
      simp only [parser]
      exact .errorMap (ih hbody)
    | named hbody name => exact ih hbody
    | lazy htouch hbody => exact .lazy (ih hbody)
    | rule name =>
      intro s hs hcarries
      simp only [parser]
      cases hname : rules.lookup name with
      | none => exact .raise _
      | some body =>
        have hentry : pegTable rules carries name = some (toPeg carries body) := by
          rw [pegTable, hname]
          rfl
        refine (ih (hrules name body hname) s hs hcarries).mono fun t ht => ?_
        refine ⟨ht.input, fun hfailed => .nonterminal hentry (ht.failed hfailed), fun hok => ?_⟩
        exact ⟨(ht.matched hok).1, .nonterminal hentry (ht.matched hok).2⟩

end Grammar

end Descent
