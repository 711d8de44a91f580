/-
  Descent/Grammar/Fuel.lean
  =========================
  **Fuel decides whether there is an answer, never which.**

  `Run.Extends x y` says that `y` agrees with `x` wherever `x` has an answer.  Every
  operation on parsers is monotone in that order, and so are the loops, both in the
  parser they repeat and in the number of rounds.  So one more unit of fuel extends
  what a grammar means (`parser_succ`), and any answer found with some fuel is found
  with more (`parser_add`).
-/
import Descent.Grammar.Meaning

namespace Descent

namespace Run

variable {α β : Type}

/-- `y` agrees with `x` wherever `x` has an answer. -/
def Extends (x y : Run α) : Prop := ∀ j, x j = .exhausted ∨ y j = x j

theorem Extends.refl (x : Run α) : Extends x x := fun _ => .inr rfl

theorem Extends.of_exhausted (y : Run α) : Extends exhausted y := fun _ => .inl rfl

theorem Extends.trans {x y z : Run α} (hxy : Extends x y) (hyz : Extends y z) :
    Extends x z := by
  intro j
  rcases hxy j with hx | hy
  · exact .inl hx
  · rcases hyz j with hy' | hz
    · exact .inl (hy ▸ hy')
    · exact .inr (hz.trans hy)

theorem Extends.bind {x y : Run α} {f g : α → Run β} (hxy : Extends x y)
    (hfg : ∀ a, Extends (f a) (g a)) : Extends (x >>= f) (y >>= g) := by
  intro j
  rw [bind_apply, bind_apply]
  rcases hxy j with hx | hy
  · rw [hx]
    exact .inl rfl
  · rw [hy]
    cases x j with
    | returned a j' => exact hfg a j'
    | raised fault j' => exact .inr rfl
    | exhausted => exact .inl rfl

theorem Extends.ite {c : Prop} [Decidable c] {x y x' y' : Run α} (hx : Extends x x')
    (hy : Extends y y') : Extends (if c then x else y) (if c then x' else y') := by
  split
  · exact hx
  · exact hy

end Run

namespace Parser

/-- The order on runs, at every state. -/
def Extends (p q : Parser) : Prop := ∀ s, Run.Extends (p s) (q s)

theorem Extends.refl (p : Parser) : Parser.Extends p p := fun _ => Run.Extends.refl _

variable {p q p' q' : Parser}

/-! ### Operations on one parser -/

theorem map_extends {f : Value → Run Value} (h : Parser.Extends p q) :
    Parser.Extends (p.map f) (q.map f) :=
  fun s => (h s).bind fun _ => .refl _

theorem chain_extends {f g : Value → Run Parser} (h : Parser.Extends p q)
    (hfg : ∀ v s, Run.Extends (f v >>= fun r => r s) (g v >>= fun r => r s)) :
    Parser.Extends (p.chain f) (q.chain g) :=
  fun s => (h s).bind fun t => .ite (.refl _) (hfg t.result t)

theorem errorMap_extends {handler : ParseError → Nat → Run Revision}
    (h : Parser.Extends p q) : Parser.Extends (p.errorMap handler) (q.errorMap handler) :=
  fun s => (h s).bind fun _ => .refl _

theorem traced_extends {label : String} (h : Parser.Extends p q) :
    Parser.Extends (traced label p) (traced label q) :=
  fun s => .ite (.refl _) (.bind (.refl _) fun _ => (h s).bind fun _ => .refl _)

/-! ### Lists of parsers -/

theorem sequenceFrom_extends {ι : Type} {f g : ι → Parser} (h : ∀ i, Parser.Extends (f i) (g i)) :
    ∀ (l : List ι) (results : List Value),
      Parser.Extends (sequenceFrom (l.map f) results) (sequenceFrom (l.map g) results)
  | [], _ => .refl _
  | i :: l, results => fun s =>
    (h i s).bind fun t =>
      .ite (.refl _) (sequenceFrom_extends h l (t.result :: results) t)

theorem sequence_extends {ι : Type} {f g : ι → Parser} (h : ∀ i, Parser.Extends (f i) (g i))
    (l : List ι) : Parser.Extends (sequence (l.map f)) (sequence (l.map g)) :=
  fun s => .ite (.refl _) (sequenceFrom_extends h l [] s)

theorem choiceFrom_extends {ι : Type} {f g : ι → Parser} (h : ∀ i, Parser.Extends (f i) (g i)) :
    ∀ l : List ι, Parser.Extends (choiceFrom (l.map f)) (choiceFrom (l.map g))
  | [] => .refl _
  | i :: l => fun s =>
    (h i s).bind fun _ => .ite (choiceFrom_extends h l s) (.refl _)

theorem choice_extends {ι : Type} {f g : ι → Parser} (h : ∀ i, Parser.Extends (f i) (g i))
    (l : List ι) : Parser.Extends (choice (l.map f)) (choice (l.map g)) :=
  fun s => .ite (.refl _) (choiceFrom_extends h l s)

/-! ### Loops -/

theorem collect_extends (h : Parser.Extends p q) :
    ∀ (fuel : Nat) (results : List Value) (s : State),
      Run.Extends (collect p fuel results s) (collect q (fuel + 1) results s)
  | 0, _, _ => .of_exhausted _
  | fuel + 1, results, s =>
    (h s).bind fun t =>
      .ite (.refl _) (.ite (.refl _) (collect_extends h fuel (t.result :: results) t))

theorem many_extends (h : Parser.Extends p q) (fuel : Nat) :
    Parser.Extends (many fuel p) (many (fuel + 1) q) :=
  fun s => .ite (.refl _) ((collect_extends h fuel [] s).bind fun _ => .refl _)

theorem many1_extends (h : Parser.Extends p q) (fuel : Nat) :
    Parser.Extends (many1 fuel p) (many1 (fuel + 1) q) :=
  fun s => .ite (.refl _) ((collect_extends h fuel [] s).bind fun _ => .refl _)

theorem collectSeparated_extends (hs : Parser.Extends p p') (hv : Parser.Extends q q') :
    ∀ (fuel : Nat) (results : List Value) (s : State),
      Run.Extends (collectSeparated p q fuel results s)
        (collectSeparated p' q' (fuel + 1) results s)
  | 0, _, _ => .of_exhausted _
  | fuel + 1, results, s =>
    (hv s).bind fun t =>
      .ite (.refl _) ((hs t).bind fun u =>
        .ite (.refl _) (collectSeparated_extends hs hv fuel (t.result :: results) u))

theorem sepBy_extends (hs : Parser.Extends p p') (hv : Parser.Extends q q') (fuel : Nat) :
    Parser.Extends (sepBy fuel p q) (sepBy (fuel + 1) p' q') :=
  fun s => .ite (.refl _) ((collectSeparated_extends hs hv fuel [] s).bind fun _ => .refl _)

theorem sepBy1_extends (hs : Parser.Extends p p') (hv : Parser.Extends q q') (fuel : Nat) :
    Parser.Extends (sepBy1 fuel p q) (sepBy1 (fuel + 1) p' q') :=
  fun s => .ite (.refl _) ((collectSeparated_extends hs hv fuel [] s).bind fun _ => .refl _)

end Parser

namespace Grammar

/-- One more unit of fuel extends what a grammar means. -/
theorem parser_succ (rules : Rules) (fuel : Nat) (g : Grammar) :
    Parser.Extends (g.parser rules fuel) (g.parser rules (fuel + 1)) := by
  induction fuel generalizing g with
  | zero => exact fun s => .of_exhausted _
  | succ fuel ih =>
    cases g with
    | custom _ _ => exact .refl _
    | literal _ => exact .refl _
    | regex _ _ => exact .refl _
    | succeed _ => exact .refl _
    | fail _ => exact .refl _
    | endOfInput => exact .refl _
    | trace _ => exact .refl _
    | sequence parts => exact Parser.sequence_extends ih parts
    | choice alternatives => exact Parser.choice_extends ih alternatives
    | many item => exact Parser.many_extends (ih item) fuel
    | many1 item => exact Parser.many1_extends (ih item) fuel
    | sepBy separator value => exact Parser.sepBy_extends (ih separator) (ih value) fuel
    | sepBy1 separator value => exact Parser.sepBy1_extends (ih separator) (ih value) fuel
    | traced _ body => exact Parser.traced_extends (ih body)
    | map body f =>
      simp only [parser]
      exact Parser.map_extends (ih body)
    | chain body prepare next =>
      simp only [parser]
      refine Parser.chain_extends (ih body) fun v s => ?_
      rw [bind_assoc, bind_assoc]
      exact .bind (.refl _) fun w => ih (next w) s
    | errorMap body handler =>
      simp only [parser]
      exact Parser.errorMap_extends (ih body)
    | named body _ => exact ih body
    | lazy touch body =>
      intro s
      change Run.Extends ((touch.run >>= fun _ => pure (body.parser rules fuel)) >>= fun p => p s)
        ((touch.run >>= fun _ => pure (body.parser rules (fuel + 1))) >>= fun p => p s)
      rw [bind_assoc, bind_assoc]
      exact .bind (.refl _) fun _ => ih body s
    | rule name =>
      intro s
      simp only [parser]
      cases rules.lookup name with
      | none => exact .refl _
      | some body => exact ih body s

/-- An answer that is found with some fuel is found with more. -/
theorem parser_add (rules : Rules) (fuel extra : Nat) (g : Grammar) :
    Parser.Extends (g.parser rules fuel) (g.parser rules (fuel + extra)) := by
  induction extra with
  | zero => exact .refl _
  | succ extra ih => exact fun s => (ih s).trans (parser_succ rules (fuel + extra) g s)

end Grammar

end Descent
