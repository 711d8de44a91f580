/-
  Descent/Proofs/Peg/Completeness.lean
  ====================================
  **What is derived, the engine answers.**

  `Gives carries input p i o` says that the parser has an answer at place `i` of the
  input, without raising anything, and that the answer is `o`: a match up to some
  place, or a failure.  Each operation on parsers gives what its expression follows
  to, as soon as the parsers it is applied to do.

  The nonterminals are left to the engine: they do what the rules give.  So one
  induction on the grammar goes from what an expression follows to, to what the
  engine gives (`gives_of_follows`), and one on the derivation from what is derived
  to what follows (`Peg.Derives.follows`), where a rule is looked up.
-/
import Descent.Proofs.Steps
import Descent.Proofs.Peg.Soundness

namespace Descent

namespace Peg

/-- The state has not failed, stands at place `i` of the input, and carries an error or
    carries none. -/
structure At (carries : Bool) (input : Text) (i : Nat) (s : State) : Prop where
  ok : s.isError = false
  carries : s.error.isSome = carries
  input : s.input = input
  cursor : s.cursor = i

/-- The state is what an answer says: it stands where the match ends, or it failed. -/
def Ends (carries : Bool) (input : Text) : Option Nat → State → Prop
  | some i, t => At carries input i t
  | none, t => t.isError = true

/-- From every state at place `i` the parser returns what the answer `o` says. -/
def Gives (carries : Bool) (input : Text) (p : Parser) (i : Nat) (o : Option Nat) : Prop :=
  ∀ (s : State) (j : Journal), At carries input i s →
    ∃ t k, p s j = .returned t k ∧ Ends carries input o t

variable {carries : Bool} {input : Text} {p q : Parser} {i k : Nat} {o : Option Nat}
  {s t : State}

theorem At.withResult (h : At carries input i s) (v : Value) :
    At carries input i (s.withResult v) :=
  ⟨h.ok, h.carries, h.input, h.cursor⟩

theorem At.advance (h : At carries input i s) (k : Nat) (v : Value) :
    At carries input k (s.advance k v) :=
  ⟨h.ok, h.carries, h.input, rfl⟩

theorem At.ahead (h : At carries input i s) : input.toList.drop i = s.ahead := by
  rw [State.ahead, h.input, h.cursor]

namespace Gives

theorem unique {o' : Option Nat} (h : Gives carries input p i o) (h' : Gives carries input p i o')
    (hs : At carries input i s) : o = o' := by
  obtain ⟨t, k, ht, hends⟩ := h s {} hs
  obtain ⟨u, l, hu, hends'⟩ := h' s {} hs
  rw [ht] at hu
  cases hu
  cases o with
  | none =>
    cases o' with
    | none => rfl
    | some m => exact absurd (hends.symm.trans hends'.ok) (by decide)
  | some n =>
    cases o' with
    | none => exact absurd (hends'.symm.trans hends.ok) (by decide)
    | some m => rw [← hends.cursor, ← hends'.cursor]

/-! ### Leaves -/

theorem of_pure (h : ∀ s, At carries input i s → ∃ t, p s = pure t ∧ Ends carries input o t) :
    Gives carries input p i o := by
  intro s j hs
  obtain ⟨t, ht, hends⟩ := h s hs
  exact ⟨t, j, congrFun ht j, hends⟩

theorem succeed (value : Value) : Gives carries input (Parser.succeed value) i (some i) := by
  refine of_pure fun s hs => ⟨s.withResult value, ?_, hs.withResult value⟩
  rw [Parser.succeed, hs.ok, if_neg Bool.false_ne_true]

theorem fail (message : String) : Gives carries input (Parser.fail message) i none := by
  refine of_pure fun s hs => ⟨s.fail .message message, ?_, rfl⟩
  rw [Parser.fail, hs.ok, if_neg Bool.false_ne_true]

theorem literal {nonterminals : String → Nat → Option Nat → Prop} {text : String}
    (htext : text ≠ "") (h : Follows nonterminals input (.literal text.toList) i o) :
    Gives carries input (Parser.literal text) i o := by
  refine of_pure fun s hs => ?_
  rcases h with ⟨⟨rest, hrest⟩, rfl⟩ | ⟨hstands, rfl⟩
  · rw [hs.ahead] at hrest
    refine ⟨_, Parser.literal_here htext hs.ok hrest.symm, ?_⟩
    rw [String.length_toList, ← hs.cursor]
    exact hs.advance _ _
  · rw [hs.ahead] at hstands
    obtain ⟨kind, message, hfails⟩ := Parser.literal_elsewhere hs.ok hstands
    exact ⟨_, hfails, rfl⟩

theorem run {nonterminals : String → Nat → Option Nat → Prop} (name source : String)
    (items : List Pattern.ClassItem)
    (h : Follows nonterminals input (.plus (.one (Pattern.CharClass.contains { items }))) i o) :
    Gives carries input (Parser.regex name (Pattern.runOf source items)) i o := by
  refine of_pure fun s hs => ?_
  have hlength : input.runLength (Pattern.CharClass.contains { items }) i
      = (s.ahead.takeWhile (Pattern.CharClass.contains { items })).length := by
    rw [← hs.ahead]
    rfl
  rw [follows_plus_one h, hlength]
  by_cases hnil : s.ahead.takeWhile (Pattern.CharClass.contains { items }) = []
  · obtain ⟨kind, message, hfails⟩ : ∃ kind message,
        Parser.regex name (Pattern.runOf source items) s = pure (s.fail kind message) :=
      Parser.regex_run_elsewhere rfl hs.ok hnil
    rw [if_pos (by rw [hnil]; rfl)]
    exact ⟨_, hfails, rfl⟩
  · rw [if_neg (by simpa using hnil), ← hs.cursor]
    exact ⟨_, Parser.regex_run_here rfl hs.ok rfl hnil, hs.advance _ _⟩

theorem endOfInput {nonterminals : String → Nat → Option Nat → Prop}
    (h : Follows nonterminals input (.not .any) i o) :
    Gives carries input Parser.endOfInput i o := by
  refine of_pure fun s hs => ?_
  have hany : ∀ o, Follows nonterminals input .any i o →
      o = if oneAt input (fun _ => true) i then some (i + 1) else none := fun _ h => h
  have hone := oneAt_any input i
  rw [hs.ahead] at hone
  rcases h with ⟨hnone, rfl⟩ | ⟨k, hsome, rfl⟩
  · have hnil : s.ahead = [] := by
      by_cases hnil : s.ahead = []
      · exact hnil
      · have hstop := hany _ hnone
        rw [if_pos (hone.mpr hnil)] at hstop
        cases hstop
    exact ⟨_, Parser.endOfInput_here hs.ok hnil, hs.withResult _⟩
  · have hne : s.ahead ≠ [] := by
      intro hnil
      have hstep := hany _ hsome
      rw [if_neg fun hat => hone.mp hat hnil] at hstep
      cases hstep
    obtain ⟨kind, message, hfails⟩ := Parser.endOfInput_elsewhere hs.ok hne
    exact ⟨_, hfails, rfl⟩

/-! ### One parser -/

theorem map {f : Value → Response Value} (hp : Gives carries input p i o)
    (htotal : ∀ s : State, s.isError = false →
      (p s).Ensures fun t => t.isError = false → ∃ v, (f t.result).outcome = .ok v) :
    Gives carries input (p.map fun v => (f v).run) i o := by
  intro s j hs
  obtain ⟨t, k, ht, hends⟩ := hp s j hs
  cases o with
  | none => exact ⟨t, k, Parser.map_failed ht hends, hends⟩
  | some m =>
    obtain ⟨v, hv⟩ := htotal s hs.ok j t k ht hends.ok
    have hrun : (f t.result).run k = .returned v (k.performAll (f t.result).effects) := by
      rw [Response.run, hv]
    exact ⟨_, _, Parser.map_ok ht hends.ok hrun, hends.withResult v⟩

/-- A success that carries an error is turned into a failure. -/
theorem errorMap {nonterminals : String → Nat → Option Nat → Prop} {e : Peg}
    {handler : ParseError → Nat → Response Revision}
    (htotal : ∀ e i, ∃ r, (handler e i).outcome = .ok r)
    (hp : ∀ o, Follows nonterminals input e i o → Gives carries input p i o)
    (h : Follows nonterminals input (if carries then .seq e .fail else e) i o) :
    Gives carries input (p.errorMap fun e i => (handler e i).run) i o := by
  have hrevise : ∀ {s t : State} {j k : Journal} {err : ParseError}, p s j = .returned t k →
      t.error = some err → ∃ u l, p.errorMap (fun e i => (handler e i).run) s j = .returned u l ∧
        u.isError = true := by
    intro s t j k err ht herror
    obtain ⟨r, hr⟩ := htotal err t.cursor
    have hrun : (handler err t.cursor).run k
        = .returned r (k.performAll (handler err t.cursor).effects) := by
      rw [Response.run, hr]
    exact ⟨_, _, Parser.errorMap_some ht herror hrun, rfl⟩
  -- A failure stays one, with or without an error to revise.
  have hfailed : Follows nonterminals input e i none →
      Gives carries input (p.errorMap fun e i => (handler e i).run) i none := by
    intro hnone s j hs
    obtain ⟨t, k, ht, hends⟩ := hp none hnone s j hs
    cases herror : t.error with
    | none => exact ⟨t, k, Parser.errorMap_none ht herror, hends⟩
    | some err => exact hrevise ht herror
  cases carries with
  | false =>
    cases o with
    | none => exact hfailed h
    | some m =>
      intro s j hs
      obtain ⟨t, k, ht, hends⟩ := hp _ h s j hs
      have hnone : t.error = none := by simpa using hends.carries
      exact ⟨t, k, Parser.errorMap_none ht hnone, hends⟩
  | true =>
    rcases h with ⟨m, hsome, hstop⟩ | ⟨hnone, rfl⟩
    · have hstop : o = none := hstop
      subst hstop
      intro s j hs
      obtain ⟨t, k, ht, hends⟩ := hp _ hsome s j hs
      obtain ⟨err, herror⟩ := Option.isSome_iff_exists.mp hends.carries
      exact hrevise ht herror
    · exact hfailed hnone

theorem lazy {touch : Response Unit} (htouch : touch.outcome = .ok ())
    (hp : Gives carries input p i o) :
    Gives carries input (fun s => do
      touch.run
      p s) i o := by
  intro s j hs
  obtain ⟨t, k, ht, hends⟩ := hp s (j.performAll touch.effects) hs
  have hrun : touch.run j = .returned () (j.performAll touch.effects) := by
    rw [Response.run, htouch]
  exact ⟨t, k, (Run.bind_returned hrun).trans ht, hends⟩

/-! ### Lists of parsers -/

section Lists

variable {nonterminals : String → Nat → Option Nat → Prop} {ι : Type} {f : ι → Parser}
  {peg : ι → Peg}

theorem sequenceFrom (l : List ι)
    (hf : ∀ x ∈ l, ∀ i o, Follows nonterminals input (peg x) i o → Gives carries input (f x) i o)
    (h : Follows nonterminals input (.concat (l.map peg)) i o) (results : List Value) :
    Gives carries input (Parser.sequenceFrom (l.map f) results) i o := by
  induction l generalizing i results with
  | nil =>
    have ho : o = some i := h
    subst ho
    exact fun s j hs => ⟨_, j, rfl, hs.withResult _⟩
  | cons x l ih =>
    intro s j hs
    rcases h with ⟨m, hfirst, hrest⟩ | ⟨hfirst, rfl⟩
    · obtain ⟨t, k, ht, hends⟩ := hf x List.mem_cons_self i _ hfirst s j hs
      obtain ⟨u, l', hu, huends⟩ := ih (fun y hy => hf y (List.mem_cons_of_mem x hy)) hrest
        (t.result :: results) t k hends
      exact ⟨u, l', (Parser.sequenceFrom_ok ht hends.ok).trans hu, huends⟩
    · obtain ⟨t, k, ht, hends⟩ := hf x List.mem_cons_self i _ hfirst s j hs
      exact ⟨t, k, Parser.sequenceFrom_failed ht hends, hends⟩

theorem sequence {l : List ι}
    (hf : ∀ x ∈ l, ∀ i o, Follows nonterminals input (peg x) i o → Gives carries input (f x) i o)
    (h : Follows nonterminals input (.concat (l.map peg)) i o) :
    Gives carries input (Parser.sequence (l.map f)) i o := by
  intro s j hs
  rw [Parser.sequence_eq hs.ok]
  exact sequenceFrom l hf h [] s j hs

theorem choiceFrom (l : List ι)
    (hf : ∀ x ∈ l, ∀ i o, Follows nonterminals input (peg x) i o → Gives carries input (f x) i o)
    (h : Follows nonterminals input (.firstOf (l.map peg)) i o) :
    Gives carries input (Parser.choiceFrom (l.map f)) i o := by
  induction l with
  | nil =>
    have ho : o = none := h
    subst ho
    exact fun s j hs => ⟨_, j, rfl, rfl⟩
  | cons x l ih =>
    intro s j hs
    rcases h with ⟨m, hfirst, rfl⟩ | ⟨hfirst, hrest⟩
    · obtain ⟨t, k, ht, hends⟩ := hf x List.mem_cons_self i _ hfirst s j hs
      exact ⟨t, k, Parser.choiceFrom_ok ht hends.ok, hends⟩
    · obtain ⟨t, k, ht, hends⟩ := hf x List.mem_cons_self i _ hfirst s j hs
      obtain ⟨u, l', hu, huends⟩ := ih (fun y hy => hf y (List.mem_cons_of_mem x hy)) hrest s k hs
      exact ⟨u, l', (Parser.choiceFrom_failed ht hends).trans hu, huends⟩

theorem choice {l : List ι}
    (hf : ∀ x ∈ l, ∀ i o, Follows nonterminals input (peg x) i o → Gives carries input (f x) i o)
    (h : Follows nonterminals input (.firstOf (l.map peg)) i o) :
    Gives carries input (Parser.choice (l.map f)) i o := by
  intro s j hs
  rw [Parser.choice_eq hs.ok]
  exact choiceFrom l hf h s j hs

end Lists

/-! ### Loops -/

section Loops

variable {nonterminals : String → Nat → Option Nat → Prop} {e f : Peg}

/-- The loop makes the rounds that the star makes, and stops where the body fails. -/
theorem gather
    (hp : ∀ i o, Follows nonterminals input e i o → Gives carries input p i o)
    (hadvances : Sound.Advances p) {i k : Nat}
    (hreach : Relation.ReflTransGen (fun i k => Follows nonterminals input e i (some k)) i k)
    (hstop : Follows nonterminals input e k none) (results : List Value) (s : State) (j : Journal)
    (hs : At carries input i s) :
    ∃ harvest l, Parser.gather p results s j = .returned harvest l ∧
      At carries input k harvest.state ∧ results.length ≤ harvest.results.length := by
  induction hreach using Relation.ReflTransGen.head_induction_on generalizing results s j with
  | refl =>
    obtain ⟨t, l, ht, hfailed⟩ := hp k none hstop s j hs
    exact ⟨_, l, Parser.gather_failed ht hfailed, hs, by simp⟩
  | @head i m hstep _ ih =>
    obtain ⟨t, l, ht, hends⟩ := hp i (some m) hstep s j hs
    have hmoved : t.cursor ≠ s.cursor := Nat.ne_of_gt (hadvances s hs.ok j t l ht hends.ok)
    obtain ⟨harvest, l', hloop, hat, hlength⟩ := ih (t.result :: results) t l hends
    refine ⟨harvest, l', (Parser.gather_ok ht hends.ok hmoved).trans hloop, hat, ?_⟩
    exact Nat.le_of_succ_le hlength

theorem repeated (hp : ∀ i o, Follows nonterminals input e i o → Gives carries input p i o)
    (hadvances : Sound.Advances p) (h : Follows nonterminals input (.star e) i o) :
    Gives carries input (Parser.repeated p) i o := by
  obtain ⟨k, hreach, hstop, rfl⟩ := h
  intro s j hs
  obtain ⟨harvest, l, hloop, hat, -⟩ := gather hp hadvances hreach hstop [] s j hs
  exact ⟨_, l, Parser.repeated_of_gather hs.ok hloop, hat.withResult _⟩

theorem repeated1 (hp : ∀ i o, Follows nonterminals input e i o → Gives carries input p i o)
    (hadvances : Sound.Advances p) (h : Follows nonterminals input (.plus e) i o) :
    Gives carries input (Parser.repeated1 p) i o := by
  intro s j hs
  rcases h with ⟨m, hfirst, k, hreach, hstop, rfl⟩ | ⟨hfirst, rfl⟩
  · obtain ⟨t, l, ht, hends⟩ := hp i (some m) hfirst s j hs
    have hmoved : t.cursor ≠ s.cursor := Nat.ne_of_gt (hadvances s hs.ok j t l ht hends.ok)
    obtain ⟨harvest, l', hloop, hat, hlength⟩ :=
      gather hp hadvances hreach hstop [t.result] t l hends
    have hgather := (Parser.gather_ok ht hends.ok hmoved).trans hloop
    exact ⟨_, l', Parser.repeated1_of_gather hs.ok hgather hlength, hat.withResult _⟩
  · obtain ⟨t, l, ht, hfailed⟩ := hp i none hfirst s j hs
    obtain ⟨message, hfails⟩ :=
      Parser.repeated1_of_nothing hs.ok (Parser.gather_failed ht hfailed) rfl
    exact ⟨_, l, hfails, rfl⟩

/-- From a value that was found on, the loop makes the rounds that the star makes.  Where
    they end there is no separator, or one without a value behind it, which is kept. -/
theorem gatherSeparated
    (hp : ∀ i o, Follows nonterminals input e i o → Gives carries input p i o)
    (hq : ∀ i o, Follows nonterminals input f i o → Gives carries input q i o)
    (hadvances : Sound.Advances p)
    (hforward : ∀ s : State, s.isError = false →
      (q s).Ensures fun t => t.isError = false → s.cursor ≤ t.cursor)
    {i k m : Nat}
    (hreach : Relation.ReflTransGen
      (fun i k => Follows nonterminals input (.seq e f) i (some k)) i k)
    (hstop : Follows nonterminals input (.seq e f) k none)
    (hlast : Follows nonterminals input (.opt e) k (some m)) (results : List Value) (s t : State)
    (j l : Journal) (hs : s.isError = false) (hvalue : q s j = .returned t l)
    (ht : At carries input i t) :
    ∃ harvest l, Parser.gatherSeparated p q results s j = .returned harvest l ∧
      At carries input m harvest.state ∧ results.length < harvest.results.length := by
  have hmoved : ∀ {u : State} {l' : Journal}, p t l = .returned u l' → u.isError = false →
      u.cursor ≠ s.cursor := by
    intro u l' hu huok
    have hle := hforward s hs j t l hvalue ht.ok
    have hlt := hadvances t ht.ok l u l' hu huok
    omega
  induction hreach using Relation.ReflTransGen.head_induction_on
    generalizing results s t j l with
  | refl =>
    rcases hstop with ⟨x, hsep, hnone⟩ | ⟨hsep, -⟩
    · obtain ⟨u, l', hu, huat⟩ := hp k (some x) hsep t l ht
      obtain ⟨w, l'', hw, hfailed⟩ := hq x none hnone u l' huat
      have hend : m = x := by
        rcases hlast with ⟨y, hsep', hy⟩ | ⟨hsep', -⟩
        · cases hy
          exact Option.some.inj ((hp k _ hsep').unique (hp k _ hsep) ht)
        · cases (hp k _ hsep').unique (hp k _ hsep) ht
      subst hend
      have hround : Parser.gatherSeparated p q results s j
          = Parser.gatherSeparated p q (t.result :: results) u l' :=
        Parser.gatherSeparated_ok hvalue ht.ok hu huat.ok (hmoved hu huat.ok)
      refine ⟨_, l'', hround.trans (Parser.gatherSeparated_failed hw hfailed), huat, ?_⟩
      simp
    · obtain ⟨u, l', hu, hfailed⟩ := hp k none hsep t l ht
      have hend : m = k := by
        rcases hlast with ⟨y, hsep', -⟩ | ⟨-, hempty⟩
        · cases (hp k _ hsep').unique (hp k _ hsep) ht
        · exact Option.some.inj hempty
      subst hend
      refine ⟨_, l', Parser.gatherSeparated_last hvalue ht.ok hu hfailed, ht, ?_⟩
      simp
  | @head i y hstep _ ih =>
    rcases hstep with ⟨x, hsep, hnext⟩ | ⟨-, hfails⟩
    · obtain ⟨u, l', hu, huat⟩ := hp i (some x) hsep t l ht
      obtain ⟨w, l'', hw, hwat⟩ := hq x (some y) hnext u l' huat
      have hmoved' : ∀ {v : State} {l : Journal}, p w l'' = .returned v l → v.isError = false →
          v.cursor ≠ u.cursor := by
        intro v l hv hvok
        have hle := hforward u huat.ok l' w l'' hw hwat.ok
        have hlt := hadvances w hwat.ok l'' v l hv hvok
        omega
      obtain ⟨harvest, l, hloop, hat, hlength⟩ :=
        ih (t.result :: results) u w l' l'' huat.ok hw hwat hmoved'
      refine ⟨harvest, l, ?_, hat, Nat.lt_of_succ_lt hlength⟩
      exact (Parser.gatherSeparated_ok hvalue ht.ok hu huat.ok (hmoved hu huat.ok)).trans hloop
    · cases hfails

/-- The cases of separated values: no value, or a value, rounds and perhaps one more
    separator. -/
theorem follows_separated (h : Follows nonterminals input (.separated e f) i o) :
    (Follows nonterminals input f i none ∧ o = none) ∨
      ∃ x k m, Follows nonterminals input f i (some x) ∧
        Relation.ReflTransGen (fun i k => Follows nonterminals input (.seq e f) i (some k)) x k ∧
        Follows nonterminals input (.seq e f) k none ∧
        Follows nonterminals input (.opt e) k (some m) ∧ o = some m := by
  rcases h with ⟨x, hvalue, hrest⟩ | hfails
  · rcases hrest with ⟨k, ⟨k', hreach, hstop, hk⟩, hlast⟩ | ⟨⟨k', -, -, hk⟩, -⟩
    · cases hk
      cases o with
      | none =>
        rcases hlast with ⟨y, -, hy⟩ | ⟨-, hempty⟩
        · cases hy
        · cases hempty
      | some m => exact .inr ⟨x, k, m, hvalue, hreach, hstop, hlast, rfl⟩
    · cases hk
  · exact .inl hfails

theorem separated1
    (hp : ∀ i o, Follows nonterminals input e i o → Gives carries input p i o)
    (hq : ∀ i o, Follows nonterminals input f i o → Gives carries input q i o)
    (hadvances : Sound.Advances p)
    (hforward : ∀ s : State, s.isError = false →
      (q s).Ensures fun t => t.isError = false → s.cursor ≤ t.cursor)
    (h : Follows nonterminals input (.separated e f) i o) :
    Gives carries input (Parser.separated1 p q) i o := by
  intro s j hs
  rcases follows_separated h with ⟨hnone, rfl⟩ | ⟨x, k, m, hvalue, hreach, hstop, hlast, rfl⟩
  · obtain ⟨t, l, ht, hfailed⟩ := hq i none hnone s j hs
    obtain ⟨message, hfails⟩ :=
      Parser.separated1_of_nothing hs.ok (Parser.gatherSeparated_failed ht hfailed) rfl
    exact ⟨_, l, hfails, rfl⟩
  · obtain ⟨t, l, ht, hat⟩ := hq i (some x) hvalue s j hs
    obtain ⟨harvest, l', hloop, hend, hlength⟩ :=
      gatherSeparated hp hq hadvances hforward hreach hstop hlast [] s t j l hs.ok ht hat
    exact ⟨_, l', Parser.separated1_of_gather hs.ok hloop hlength, hend.withResult _⟩

theorem separated
    (hp : ∀ i o, Follows nonterminals input e i o → Gives carries input p i o)
    (hq : ∀ i o, Follows nonterminals input f i o → Gives carries input q i o)
    (hadvances : Sound.Advances p)
    (hforward : ∀ s : State, s.isError = false →
      (q s).Ensures fun t => t.isError = false → s.cursor ≤ t.cursor)
    (h : Follows nonterminals input (.opt (.separated e f)) i o) :
    Gives carries input (Parser.separated p q) i o := by
  intro s j hs
  rcases h with ⟨m, hsome, rfl⟩ | ⟨hnone, hempty⟩
  · rcases follows_separated hsome with ⟨-, hm⟩ | ⟨x, k, m', hvalue, hreach, hstop, hlast, hm⟩
    · cases hm
    · cases hm
      obtain ⟨t, l, ht, hat⟩ := hq i (some x) hvalue s j hs
      obtain ⟨harvest, l', hloop, hend, -⟩ :=
        gatherSeparated hp hq hadvances hforward hreach hstop hlast [] s t j l hs.ok ht hat
      exact ⟨_, l', Parser.separated_of_gather hs.ok hloop, hend.withResult _⟩
  · have ho : o = some i := hempty
    subst ho
    rcases follows_separated hnone with ⟨hvalue, -⟩ | ⟨_, _, _, _, _, _, _, hm⟩
    · obtain ⟨t, l, ht, hfailed⟩ := hq i none hvalue s j hs
      have hgather : Parser.gatherSeparated p q [] s j = .returned ⟨[], s⟩ l :=
        Parser.gatherSeparated_failed ht hfailed
      exact ⟨_, l, Parser.separated_of_gather hs.ok hgather, hs.withResult _⟩
    · cases hm

end Loops

end Gives

end Peg

namespace Grammar

open Peg (Gives Follows Derives)

variable {rules : Rules} {carries : Bool} {input : Text}

/-- What the engine does with a rule. -/
def engineRule (rules : Rules) (carries : Bool) (input : Text) (name : String) (i : Nat)
    (o : Option Nat) : Prop :=
  Gives carries input ((Grammar.rule name).meaning rules) i o

theorem meaning_sound (hrules : ∀ name body, rules.lookup name = some body → IsPeg rules body)
    {g : Grammar} (hg : IsPeg rules g) (carries : Bool) :
    Peg.Sound (pegTable rules carries) carries (toPeg carries g) (g.meaning rules) :=
  fun s hs hcarries => .limit fun fuel => parser_sound hrules fuel hg s hs hcarries

/-- A success does not move the cursor back. -/
theorem meaning_forward (hrules : ∀ name body, rules.lookup name = some body → IsPeg rules body)
    {g : Grammar} (hg : IsPeg rules g) (s : State) (hs : s.isError = false) :
    (g.meaning rules s).Ensures fun t => t.isError = false → s.cursor ≤ t.cursor :=
  (meaning_sound hrules hg s.error.isSome s hs rfl).mono fun _ ht hok => (ht.matched hok).2.le

/-- **A grammar gives what its expression follows to**, where the nonterminals do what
    the engine does with the rules. -/
theorem gives_of_follows
    (hrules : ∀ name body, rules.lookup name = some body → IsPeg rules body)
    {g : Grammar} (hg : IsPeg rules g) (i : Nat) (o : Option Nat)
    (h : Follows (engineRule rules carries input) input (toPeg carries g) i o) :
    Gives carries input (g.meaning rules) i o := by
  induction hg generalizing i o with
  | literal htext =>
    rw [meaning_literal]
    exact .literal htext h
  | run name source items =>
    rw [meaning_regex]
    exact .run name source items h
  | succeed value =>
    have ho : o = some i := h
    subst ho
    rw [meaning_succeed]
    exact .succeed value
  | fail message =>
    have ho : o = none := h
    subst ho
    rw [meaning_fail]
    exact .fail message
  | endOfInput =>
    rw [meaning_endOfInput]
    exact .endOfInput h
  | sequence hparts ih =>
    rw [toPeg, toPegs_eq_map] at h
    rw [meaning_sequence]
    exact .sequence ih h
  | choice hparts ih =>
    rw [toPeg, toPegs_eq_map] at h
    rw [meaning_choice]
    exact .choice ih h
  | many hitem hadvances ih =>
    rw [meaning_many]
    exact .repeated ih hadvances h
  | many1 hitem hadvances ih =>
    rw [meaning_many1]
    exact .repeated1 ih hadvances h
  | sepBy hseparator hvalue hadvances ihs ihv =>
    rw [meaning_sepBy]
    exact .separated ihs ihv hadvances (meaning_forward hrules hvalue) h
  | sepBy1 hseparator hvalue hadvances ihs ihv =>
    rw [meaning_sepBy1]
    exact .separated1 ihs ihv hadvances (meaning_forward hrules hvalue) h
  | map hbody hmaps ih =>
    rw [meaning_map]
    exact .map (ih i o h) hmaps
  | errorMap hbody htotal ih =>
    rw [meaning_errorMap]
    exact .errorMap htotal (fun o => ih i o) h
  | named hbody name ih =>
    rw [meaning_named]
    exact ih i o h
  | lazy htouch hbody ih =>
    rw [meaning_lazy]
    exact .lazy htouch (ih i o h)
  | rule name => exact h

/-- **What is derived, the engine gives.** -/
theorem gives_of_derives
    (hrules : ∀ name body, rules.lookup name = some body → IsPeg rules body)
    {g : Grammar} (hg : IsPeg rules g) {i : Nat} {o : Option Nat}
    (h : Derives (pegTable rules carries) input (toPeg carries g) i o) :
    Gives carries input (g.meaning rules) i o := by
  refine gives_of_follows hrules hg i o (h.follows fun name e i o hname hfollows => ?_)
  obtain ⟨body, hbody, rfl⟩ := Option.map_eq_some_iff.mp hname
  rw [engineRule, meaning_rule_of_some hbody]
  exact gives_of_follows hrules (hrules name body hbody) i o hfollows

end Grammar

end Descent
