/-
  Descent/Proofs/Meaning.lean
  ===========================
  **What a grammar means once fuel is out of the picture.**

  `Grammar.meaning` is the limit of `Grammar.parser` over fuel: the answer that
  enough fuel finds, and no answer where no fuel finds one (`parser_settles`).  It
  has one equation for each kind of node, in which no fuel occurs.

  What holds for every fuel is proved by induction on fuel and carried over by
  `parser_extends_meaning`; what an answer is made of is read off the equations.
-/
import Descent.Proofs.Loops

namespace Descent.Grammar

/-- The parser that a grammar stands for, with as much fuel as it takes. -/
noncomputable def meaning (rules : Rules) (g : Grammar) : Parser :=
  Parser.limit fun fuel => g.parser rules fuel

variable (rules : Rules)

theorem parser_rising (g : Grammar) : Parser.Rising fun fuel => g.parser rules fuel :=
  fun fuel => parser_succ rules fuel g

/-! ### Fuel and no fuel -/

/-- From each state and journal, enough fuel gives the meaning. -/
theorem parser_settles (g : Grammar) (s : State) (j : Journal) :
    ∃ n, ∀ fuel, n ≤ fuel → g.parser rules fuel s j = g.meaning rules s j :=
  ((parser_rising rules g).apply s).settles j

theorem settlesOn_iff {g : Grammar} {s : State} {j : Journal} {o : Outcome State} :
    Run.SettlesOn (fun fuel => g.parser rules fuel s) j o ↔ g.meaning rules s j = o :=
  ((parser_rising rules g).apply s).settlesOn_iff

/-- What relates two meanings is what relates the answers that enough fuel gives. -/
theorem exists_fuel_iff_meaning {T : Outcome State → Outcome State → Prop} {rules rules' : Rules}
    {g g' : Grammar} {s t : State} {j k : Journal} :
    (∃ n, ∀ fuel, n ≤ fuel → T (g.parser rules fuel s j) (g'.parser rules' fuel t k))
      ↔ T (g.meaning rules s j) (g'.meaning rules' t k) := by
  obtain ⟨n, hn⟩ := parser_settles rules g s j
  obtain ⟨m, hm⟩ := parser_settles rules' g' t k
  constructor
  · rintro ⟨i, hi⟩
    have h := hi (max i (max n m)) (by omega)
    rwa [hn _ (by omega), hm _ (by omega)] at h
  · intro h
    refine ⟨max n m, fun fuel hfuel => ?_⟩
    rw [hn fuel (by omega), hm fuel (by omega)]
    exact h

theorem exists_fuel_of_meaning {T : Outcome State → Outcome State → Prop} {rules rules' : Rules}
    {g g' : Grammar} {s t : State} {j k : Journal}
    (h : T (g.meaning rules s j) (g'.meaning rules' t k)) :
    ∃ n, ∀ fuel, n ≤ fuel → T (g.parser rules fuel s j) (g'.parser rules' fuel t k) :=
  exists_fuel_iff_meaning.mpr h

theorem parser_extends_meaning (fuel : Nat) (g : Grammar) :
    Parser.Extends (g.parser rules fuel) (g.meaning rules) :=
  fun s => ((parser_rising rules g).apply s).extends_limit fuel

/-- The answers of the meaning are the answers that some fuel finds. -/
theorem meaning_eq_iff {g : Grammar} {s : State} {j : Journal} {o : Outcome State}
    (ho : o ≠ .exhausted) :
    g.meaning rules s j = o ↔ ∃ fuel, g.parser rules fuel s j = o := by
  constructor
  · intro h
    obtain ⟨n, hn⟩ := parser_settles rules g s j
    exact ⟨n, (hn n (Nat.le_refl n)).trans h⟩
  · rintro ⟨fuel, h⟩
    have hanswer : g.parser rules fuel s j ≠ .exhausted := by rwa [h]
    rw [(parser_extends_meaning rules fuel g s).eq_of_answer hanswer, h]

/-- What some fuel finds, more fuel finds as well. -/
theorem settlesOn_of_returned {g : Grammar} {s t : State} {j k : Journal} {n : Nat}
    (h : g.parser rules n s j = .returned t k) :
    Run.SettlesOn (fun fuel => g.parser rules fuel s) j (.returned t k) := by
  have hanswer : Outcome.returned t k ≠ .exhausted := nofun
  exact (settlesOn_iff rules).mpr ((meaning_eq_iff rules hanswer).mpr ⟨n, h⟩)

/-! ### One equation for each kind of node -/

/-- The first unit of fuel is spent on the node itself. -/
theorem meaning_eq_limit_succ (g : Grammar) :
    g.meaning rules = Parser.limit fun fuel => g.parser rules (fuel + 1) :=
  (parser_rising rules g).limit_tail.symm

/-- A node without parts stands for one parser, whatever the fuel. -/
theorem meaning_of_leaf {g : Grammar} {p : Parser} (h : ∀ fuel, g.parser rules (fuel + 1) = p) :
    g.meaning rules = p := by
  rw [meaning_eq_limit_succ]
  simp only [h, Parser.limit_const]

variable {rules}

@[simp] theorem meaning_custom (name : String) (step : State → Response State) :
    (custom name step).meaning rules = fun s => (step s).run :=
  meaning_of_leaf rules fun _ => rfl

@[simp] theorem meaning_literal (text : String) :
    (literal text).meaning rules = Parser.literal text :=
  meaning_of_leaf rules fun _ => rfl

@[simp] theorem meaning_regex (name : String) (pattern : Pattern) :
    (regex name pattern).meaning rules = Parser.regex name pattern :=
  meaning_of_leaf rules fun _ => rfl

@[simp] theorem meaning_succeed (value : Value) :
    (succeed value).meaning rules = Parser.succeed value :=
  meaning_of_leaf rules fun _ => rfl

@[simp] theorem meaning_fail (message : String) :
    (fail message).meaning rules = Parser.fail message :=
  meaning_of_leaf rules fun _ => rfl

@[simp] theorem meaning_endOfInput : endOfInput.meaning rules = Parser.endOfInput :=
  meaning_of_leaf rules fun _ => rfl

@[simp] theorem meaning_trace (label : String) :
    (trace label).meaning rules = Parser.trace label :=
  meaning_of_leaf rules fun _ => rfl

@[simp] theorem meaning_sequence (parts : List Grammar) :
    (sequence parts).meaning rules = Parser.sequence (parts.map (meaning rules)) := by
  rw [meaning_eq_limit_succ]
  exact Parser.limit_sequence (parser_rising rules) parts

@[simp] theorem meaning_choice (alternatives : List Grammar) :
    (choice alternatives).meaning rules = Parser.choice (alternatives.map (meaning rules)) := by
  rw [meaning_eq_limit_succ]
  exact Parser.limit_choice (parser_rising rules) alternatives

@[simp] theorem meaning_many (item : Grammar) :
    (many item).meaning rules = Parser.repeated (item.meaning rules) := by
  rw [meaning_eq_limit_succ]
  exact Parser.limit_many (parser_rising rules item)

@[simp] theorem meaning_many1 (item : Grammar) :
    (many1 item).meaning rules = Parser.repeated1 (item.meaning rules) := by
  rw [meaning_eq_limit_succ]
  exact Parser.limit_many1 (parser_rising rules item)

@[simp] theorem meaning_sepBy (separator value : Grammar) :
    (sepBy separator value).meaning rules
      = Parser.separated (separator.meaning rules) (value.meaning rules) := by
  rw [meaning_eq_limit_succ]
  exact Parser.limit_sepBy (parser_rising rules separator) (parser_rising rules value)

@[simp] theorem meaning_sepBy1 (separator value : Grammar) :
    (sepBy1 separator value).meaning rules
      = Parser.separated1 (separator.meaning rules) (value.meaning rules) := by
  rw [meaning_eq_limit_succ]
  exact Parser.limit_sepBy1 (parser_rising rules separator) (parser_rising rules value)

@[simp] theorem meaning_traced (label : String) (body : Grammar) :
    (traced label body).meaning rules = Parser.traced label (body.meaning rules) := by
  rw [meaning_eq_limit_succ]
  exact Parser.limit_traced (parser_rising rules body)

@[simp] theorem meaning_map (body : Grammar) (f : Value → Response Value) :
    (map body f).meaning rules = (body.meaning rules).map fun v => (f v).run := by
  rw [meaning_eq_limit_succ]
  simp only [parser]
  exact Parser.limit_map (parser_rising rules body)

@[simp] theorem meaning_chain (body : Grammar) (prepare : Value → Response Value)
    (next : Value → Grammar) :
    (chain body prepare next).meaning rules
      = (body.meaning rules).chain (fun v => do
          let w ← (prepare v).run
          pure ((next w).meaning rules)) := by
  rw [meaning_eq_limit_succ]
  simp only [parser]
  refine Parser.limit_chain (parser_rising rules body) (fun v s => ?_) fun v s => ?_
  · intro fuel
    simp only [bind_assoc, pure_bind]
    exact .bind (.refl _) fun w => parser_succ rules fuel (next w) s
  · simp only [bind_assoc, pure_bind]
    exact Run.limit_bind_right _ fun w => (parser_rising rules (next w)).apply s

@[simp] theorem meaning_errorMap (body : Grammar)
    (handler : ParseError → Nat → Response Revision) :
    (errorMap body handler).meaning rules
      = (body.meaning rules).errorMap fun e cursor => (handler e cursor).run := by
  rw [meaning_eq_limit_succ]
  simp only [parser]
  exact Parser.limit_errorMap (parser_rising rules body)

@[simp] theorem meaning_named (body : Grammar) (name : String) :
    (named body name).meaning rules = body.meaning rules := by
  rw [meaning_eq_limit_succ]
  rfl

@[simp] theorem meaning_lazy (touch : Response Unit) (body : Grammar) :
    (lazy touch body).meaning rules = (fun s => do
      touch.run
      body.meaning rules s) := by
  rw [meaning_eq_limit_succ]
  funext s
  have hcall : ∀ fuel, (lazy touch body).parser rules (fuel + 1) s
      = touch.run >>= fun _ => body.parser rules fuel s := by
    intro fuel
    simp only [parser, Parser.lazy, bind_assoc, pure_bind]
  simp only [Parser.limit, hcall]
  exact Run.limit_bind_right _ fun _ => (parser_rising rules body).apply s

theorem meaning_rule_of_some {name : String} {body : Grammar}
    (h : rules.lookup name = some body) :
    (rule name).meaning rules = body.meaning rules := by
  rw [meaning_eq_limit_succ]
  simp only [parser, h]
  rfl

theorem meaning_rule_of_none {name : String} (h : rules.lookup name = none) :
    (rule name).meaning rules = fun _ => Run.raise (.unknownRule name) :=
  meaning_of_leaf rules fun _ => by simp only [parser, h]

end Descent.Grammar
