/-
  Descent/Proofs/Ensures.lean
  ===========================
  **What holds of every value that a run returns.**

  `Run.Ensures x P` is partial correctness: whatever `x` returns has the property
  `P`; nothing is said about faults or missing answers.

  A `Parser.Contract` says which states a parser may be applied to, and how the state
  that it returns is then related to that one.  Every operation meets a contract as
  soon as the parsers that it is applied to do, so a grammar meets it as soon as it is
  met at every node (`Grammar.parser_meets`).  A node has a say of its own where it is
  a matcher, a user-written step or a handler of errors.

  `Parser.Keeps R p` is the contract that asks nothing of the state before.  A relation
  that is indifferent to results and errors and that can be followed from state to
  state (`Parser.Frame`) is kept by a grammar as soon as it is kept by its leaves
  (`Grammar.keeps_of_frame`).
-/
import Descent.Proofs.Meaning
import Descent.Proofs.Parts

namespace Descent

namespace Run

variable {α β : Type} {P : α → Prop} {Q : β → Prop}

/-- Every value that the run returns has the property. -/
def Ensures (x : Run α) (P : α → Prop) : Prop := ∀ j a k, x j = .returned a k → P a

theorem Ensures.pure {a : α} (h : P a) : (pure a : Run α).Ensures P := by
  intro j b k hb
  cases hb
  exact h

theorem Ensures.exhausted : (exhausted : Run α).Ensures P := by
  intro j a k h
  cases h

theorem Ensures.raise (fault : Fault) : (raise fault : Run α).Ensures P := by
  intro j a k h
  cases h

theorem Ensures.bind {x : Run α} {f : α → Run β} (hx : x.Ensures P)
    (hf : ∀ a, P a → (f a).Ensures Q) : (x >>= f).Ensures Q := by
  intro j b k h
  rw [bind_apply] at h
  cases hj : x j with
  | returned a j' =>
    rw [hj] at h
    exact hf a (hx j a j' hj) j' b k h
  | raised fault j' => rw [hj] at h; cases h
  | exhausted => rw [hj] at h; cases h

/-- Two runs go on alike if they do with every value that is returned. -/
theorem Ensures.bind_congr {x : Run α} {f g : α → Run β} (hx : x.Ensures P)
    (h : ∀ a, P a → f a = g a) : x >>= f = x >>= g := by
  funext j
  rw [bind_apply, bind_apply]
  cases hj : x j with
  | returned a k => exact congrFun (h a (hx j a k hj)) k
  | raised fault k => rfl
  | exhausted => rfl

/-- As `bind_congr`, for two runs that stop alike at a state that has failed. -/
theorem Ensures.bind_ok_congr {P : State → Prop} {x : Run State} {stop f g : State → Run β}
    (hx : x.Ensures P) (h : ∀ t, P t → t.isError = false → f t = g t) :
    (x >>= fun t => if t.isError then stop t else f t)
      = x >>= fun t => if t.isError then stop t else g t :=
  hx.bind_congr fun t ht => ite_congr rfl (fun _ => rfl) fun hgoes => h t ht (by simpa using hgoes)

theorem Ensures.trivial (x : Run α) : x.Ensures fun _ => True := fun _ _ _ _ => True.intro

/-- Of a value that is returned it is known that it has been. -/
theorem Ensures.returned (x : Run α) : x.Ensures fun a => ∃ j k, x j = .returned a k :=
  fun j _ k h => ⟨j, k, h⟩

theorem Ensures.ite {c : Prop} [Decidable c] {x y : Run α} (hx : c → x.Ensures P)
    (hy : ¬c → y.Ensures P) : (if c then x else y).Ensures P := by
  split
  · exact hx ‹c›
  · exact hy ‹¬c›

theorem Ensures.mono {P' : α → Prop} {x : Run α} (hx : x.Ensures P) (h : ∀ a, P a → P' a) :
    x.Ensures P' :=
  fun j a k hj => h a (hx j a k hj)

theorem Ensures.of_extends {x y : Run α} (hy : y.Ensures P) (h : Extends x y) : x.Ensures P := by
  intro j a k hj
  have hanswer : x j ≠ .exhausted := by rw [hj]; exact fun h => nomatch h
  exact hy j a k ((h.eq_of_answer hanswer).trans hj)

theorem Ensures.limit {x : Nat → Run α} (h : ∀ n, (x n).Ensures P) : (Run.limit x).Ensures P := by
  intro j a k hj
  have hanswer : Run.limit x j ≠ .exhausted := by rw [hj]; exact fun h => nomatch h
  obtain ⟨n, hn⟩ := exists_fuel_of_limit_ne hanswer
  exact h n j a k (hn.trans hj)

theorem response_returned {r : Response α} {a : α} {j k : Journal}
    (h : r.run j = .returned a k) : r.outcome = .ok a := by
  rw [Response.run] at h
  cases hr : r.outcome with
  | ok b =>
    rw [hr] at h
    cases h
    rfl
  | error fault =>
    rw [hr] at h
    cases h

theorem response_raised {r : Response α} {fault : Fault} {j k : Journal}
    (h : r.run j = .raised fault k) : r.outcome = .error fault := by
  rw [Response.run] at h
  cases hr : r.outcome with
  | ok a =>
    rw [hr] at h
    cases h
  | error fault' =>
    rw [hr] at h
    cases h
    rfl

end Run

/-- A failure of this kind says nothing untrue of where the state stands: the end of the
    input is reported at the end, and a mismatch where there is a character. -/
def State.Admits (s : State) : ErrorKind → Prop
  | .endOfInput => s.input.size ≤ s.cursor
  | .literalMismatch | .classMismatch => s.cursor < s.input.size
  | .alternativesExhausted | .repetitionEmpty | .message => True

namespace Parser

open Run (Ensures)

variable {R : State → State → Prop} {p q : Parser}

/-! ### Contracts -/

/-- What parsers are held to: applied to a state of a certain kind, they return a state
    that is related to it.

    A state may be returned as it is, steps may follow one another, and a state that
    has not failed is one that a parser may be applied to.  Results may be set, and a
    parser may fail where it stands, with a kind of failure that is true of the place. -/
structure Contract where
  before : State → Prop
  after : State → State → Prop
  stays {s : State} (h : before s) : after s s
  follows {s t u : State} (hst : after s t) (htu : after t u) : after s u
  goesOn {s t : State} (h : after s t) (ok : t.isError = false) : before t
  withResult {s : State} (h : before s) (v : Value) : after s (s.withResult v)
  fail {s : State} (h : before s) (kind : ErrorKind) (message : String)
    (hkind : s.Admits kind) : after s (s.fail kind message)

namespace Contract

variable (c : Contract) {p q : Parser} {s t : State}

/-- The parser does as the contract says. -/
def MetBy (p : Parser) : Prop := ∀ s, c.before s → (p s).Ensures (c.after s)

/-- The contract allows for what the handler makes of the error of a state. -/
def Handles (handler : ParseError → Nat → Run Revision) : Prop :=
  ∀ s t e, c.after s t → t.error = some e →
    (handler e t.cursor).Ensures fun r => c.after s (t.withError (some (e.revise r)))

theorem goesOn_of_not (h : c.after s t) (hok : ¬t.isError = true) : c.before t :=
  c.goesOn h (Bool.eq_false_iff.mpr hok)

/-- A state that has failed is returned as it is. -/
theorem metBy_guarded (h : ∀ s, c.before s → s.isError = false → (p s).Ensures (c.after s)) :
    c.MetBy fun s => if s.isError then pure s else p s := by
  intro s hs
  refine .ite (fun _ => ?_) fun hok => ?_
  · exact .pure (c.stays hs)
  · exact h s hs (Bool.eq_false_iff.mpr hok)

theorem metBy_succeed (value : Value) : c.MetBy (succeed value) := by
  apply c.metBy_guarded
  intro s hs _
  exact .pure (c.withResult hs value)

theorem metBy_fail (message : String) : c.MetBy (Parser.fail message) := by
  apply c.metBy_guarded
  intro s hs _
  exact .pure (c.fail hs .message message True.intro)

theorem metBy_endOfInput : c.MetBy endOfInput := by
  apply c.metBy_guarded
  intro s hs _
  refine .ite (fun _ => ?_) fun _ => ?_
  · exact .pure (c.withResult hs _)
  · exact .pure (c.fail hs .message _ True.intro)

theorem metBy_trace (label : String) : c.MetBy (trace label) := by
  intro s hs
  refine .bind (.trivial _) fun debug _ => ?_
  refine .ite (fun _ => ?_) fun _ => ?_
  · exact .bind (.trivial _) fun _ _ => .pure (c.stays hs)
  · exact .pure (c.stays hs)

theorem metBy_traced (label : String) (hp : c.MetBy p) : c.MetBy (traced label p) := by
  apply c.metBy_guarded
  intro s hs _
  refine .bind (.trivial _) fun _ _ => ?_
  refine .bind (hp s hs) fun t ht => ?_
  refine .ite (fun _ => ?_) fun _ => ?_
  · exact .bind (.trivial _) fun _ _ => .pure ht
  · exact .pure ht

theorem metBy_map (f : Value → Run Value) (hp : c.MetBy p) : c.MetBy (p.map f) := by
  intro s hs
  refine .bind (hp s hs) fun t ht => ?_
  refine .ite (fun _ => ?_) fun hok => ?_
  · exact .pure ht
  · have hbefore := c.goesOn_of_not ht hok
    exact .bind (.trivial _) fun v _ => .pure (c.follows ht (c.withResult hbefore v))

theorem metBy_chain {next : Value → Run Parser} (hp : c.MetBy p)
    (hnext : ∀ v, (next v).Ensures c.MetBy) : c.MetBy (p.chain next) := by
  intro s hs
  refine .bind (hp s hs) fun t ht => ?_
  refine .ite (fun _ => ?_) fun hok => ?_
  · exact .pure ht
  · refine .bind (hnext t.result) fun q hq => ?_
    exact (hq t (c.goesOn_of_not ht hok)).mono fun u hu => c.follows ht hu

theorem metBy_errorMap {handler : ParseError → Nat → Run Revision} (hp : c.MetBy p)
    (hhandler : c.Handles handler) : c.MetBy (p.errorMap handler) := by
  intro s hs
  refine .bind (hp s hs) fun t ht => ?_
  cases herror : t.error with
  | none => exact .pure ht
  | some e => exact .bind (hhandler s t e ht herror) fun r hr => .pure hr

theorem metBy_lazy {thunk : Run Parser} (hthunk : thunk.Ensures c.MetBy) :
    c.MetBy (Parser.lazy thunk) := by
  intro s hs
  exact .bind hthunk fun p hp => hp s hs

/-! ### Lists of parsers -/

theorem metBy_sequenceFrom {ps : List Parser} (hps : ∀ p ∈ ps, c.MetBy p)
    (results : List Value) : c.MetBy (sequenceFrom ps results) := by
  induction ps generalizing results with
  | nil => exact fun s hs => .pure (c.withResult hs _)
  | cons p ps ih =>
    intro s hs
    refine .bind (hps p List.mem_cons_self s hs) fun t ht => ?_
    refine .ite (fun _ => ?_) fun hok => ?_
    · exact .pure ht
    · have hrest := ih (fun q hq => hps q (List.mem_cons_of_mem p hq)) (t.result :: results) t
      exact (hrest (c.goesOn_of_not ht hok)).mono fun u hu => c.follows ht hu

theorem metBy_sequence {ps : List Parser} (hps : ∀ p ∈ ps, c.MetBy p) :
    c.MetBy (sequence ps) := by
  apply c.metBy_guarded
  intro s hs _
  exact c.metBy_sequenceFrom hps [] s hs

theorem metBy_choiceFrom {ps : List Parser} (hps : ∀ p ∈ ps, c.MetBy p) :
    c.MetBy (choiceFrom ps) := by
  induction ps with
  | nil => exact fun s hs => .pure (c.fail hs .alternativesExhausted _ True.intro)
  | cons p ps ih =>
    intro s hs
    refine .bind (hps p List.mem_cons_self s hs) fun t ht => ?_
    refine .ite (fun _ => ?_) fun _ => ?_
    · exact ih (fun q hq => hps q (List.mem_cons_of_mem p hq)) s hs
    · exact .pure ht

theorem metBy_choice {ps : List Parser} (hps : ∀ p ∈ ps, c.MetBy p) : c.MetBy (choice ps) := by
  apply c.metBy_guarded
  intro s hs _
  exact c.metBy_choiceFrom hps s hs

/-! ### Loops -/

/-- A loop ends with a state that it could go on from. -/
theorem ensures_collect (hp : c.MetBy p) (fuel : Nat) (results : List Value) (hs : c.before s) :
    (collect p fuel results s).Ensures fun harvest =>
      c.before harvest.state ∧ c.after s harvest.state := by
  induction fuel generalizing results s with
  | zero => exact .exhausted
  | succ fuel ih =>
    refine .bind (hp s hs) fun t ht => ?_
    refine .ite (fun _ => ?_) fun hok => ?_
    · exact .pure ⟨hs, c.stays hs⟩
    · have hbefore := c.goesOn_of_not ht hok
      refine .ite (fun _ => ?_) fun _ => ?_
      · exact .pure ⟨hbefore, ht⟩
      · exact (ih (t.result :: results) hbefore).mono fun harvest h => ⟨h.1, c.follows ht h.2⟩

theorem metBy_many (hp : c.MetBy p) (fuel : Nat) : c.MetBy (many fuel p) := by
  apply c.metBy_guarded
  intro s hs _
  refine .bind (c.ensures_collect hp fuel [] hs) fun harvest h => ?_
  exact .pure (c.follows h.2 (c.withResult h.1 _))

theorem metBy_many1 (hp : c.MetBy p) (fuel : Nat) : c.MetBy (many1 fuel p) := by
  apply c.metBy_guarded
  intro s hs _
  refine .bind (c.ensures_collect hp fuel [] hs) fun harvest h => ?_
  refine .ite (fun _ => ?_) fun _ => ?_
  · exact .pure (c.fail hs .repetitionEmpty _ True.intro)
  · exact .pure (c.follows h.2 (c.withResult h.1 _))

theorem ensures_collectSeparated (hp : c.MetBy p) (hq : c.MetBy q) (fuel : Nat)
    (results : List Value) (hs : c.before s) :
    (collectSeparated p q fuel results s).Ensures fun harvest =>
      c.before harvest.state ∧ c.after s harvest.state := by
  induction fuel generalizing results s with
  | zero => exact .exhausted
  | succ fuel ih =>
    refine .bind (hq s hs) fun t ht => ?_
    refine .ite (fun _ => ?_) fun hok => ?_
    · exact .pure ⟨hs, c.stays hs⟩
    · have hfound := c.goesOn_of_not ht hok
      refine .bind (hp t hfound) fun u hu => ?_
      refine .ite (fun _ => ?_) fun hgoes => ?_
      · exact .pure ⟨hfound, ht⟩
      · have hok' : ¬u.isError = true := fun hfailed => hgoes (by simp [hfailed])
        have hrest := ih (t.result :: results) (c.goesOn_of_not hu hok')
        exact hrest.mono fun harvest h => ⟨h.1, c.follows (c.follows ht hu) h.2⟩

theorem metBy_sepBy (hp : c.MetBy p) (hq : c.MetBy q) (fuel : Nat) :
    c.MetBy (sepBy fuel p q) := by
  apply c.metBy_guarded
  intro s hs _
  refine .bind (c.ensures_collectSeparated hp hq fuel [] hs) fun harvest h => ?_
  exact .pure (c.follows h.2 (c.withResult h.1 _))

theorem metBy_sepBy1 (hp : c.MetBy p) (hq : c.MetBy q) (fuel : Nat) :
    c.MetBy (sepBy1 fuel p q) := by
  apply c.metBy_guarded
  intro s hs _
  refine .bind (c.ensures_collectSeparated hp hq fuel [] hs) fun harvest h => ?_
  refine .ite (fun _ => ?_) fun _ => ?_
  · exact .pure (c.fail hs .repetitionEmpty _ True.intro)
  · exact .pure (c.follows h.2 (c.withResult h.1 _))

end Contract

/-! ### What a sequence yields -/

/-- A sequence yields as many results as it has parts. -/
theorem ensures_sequenceFrom_length (ps : List Parser) (results : List Value) (s : State) :
    (sequenceFrom ps results s).Ensures fun t => t.isError = false →
      ∃ items, t.result = .list items ∧ items.length = results.length + ps.length := by
  induction ps generalizing results s with
  | nil => exact .pure fun _ => ⟨results.reverse, rfl, by simp⟩
  | cons p ps ih =>
    refine .bind (.trivial _) fun t _ => .ite (fun hfailed => ?_) fun _ => ?_
    · refine .pure fun hok => ?_
      rw [hfailed] at hok
      cases hok
    · refine (ih (t.result :: results) t).mono fun u hu hok => ?_
      obtain ⟨items, hitems, hlength⟩ := hu hok
      refine ⟨items, hitems, ?_⟩
      simp only [List.length_cons] at hlength ⊢
      omega

/-- Of three results, the one in the middle can always be picked. -/
theorem ensures_pick_middle (p q r : Parser) (s : State) :
    (sequence [p, q, r] s).Ensures fun t => t.isError = false →
      ∃ v, (Grammar.pick 1 t.result).outcome = .ok v := by
  refine .ite (fun hfailed => ?_) fun _ => ?_
  · refine .pure fun hok => ?_
    rw [hfailed] at hok
    cases hok
  · refine (ensures_sequenceFrom_length [p, q, r] [] s).mono fun t ht hok => ?_
    obtain ⟨items, hitems, hlength⟩ := ht hok
    have hmiddle : 1 < items.length := by simp [hlength]
    refine ⟨items[1], ?_⟩
    rw [hitems, Grammar.pick, List.getElem?_eq_getElem hmiddle]
    rfl

/-! ### Contracts on all states -/

/-- Every state that the parser returns is related to the one it was applied to. -/
def Keeps (R : State → State → Prop) (p : Parser) : Prop := ∀ s, (p s).Ensures (R s)

/-- A relation that can be followed from state to state and that is indifferent to
    results and errors. -/
structure Frame (R : State → State → Prop) : Prop where
  refl (s : State) : R s s
  trans {s t u : State} (hst : R s t) (htu : R t u) : R s u
  withResult (s : State) (v : Value) : R s (s.withResult v)
  withError (s : State) (e : Option ParseError) : R s (s.withError e)

namespace Frame

variable (hR : Frame R)

include hR

theorem fail (s : State) (kind : ErrorKind) (message : String) : R s (s.fail kind message) :=
  hR.withError s _

/-- To keep the relation is a contract, whatever state a parser is applied to. -/
def contract : Contract where
  before _ := True
  after := R
  stays _ := hR.refl _
  follows := hR.trans
  goesOn _ _ := True.intro
  withResult _ v := hR.withResult _ v
  fail _ _ _ _ := hR.withError _ _

theorem metBy_iff : hR.contract.MetBy p ↔ Keeps R p :=
  ⟨fun h s => h s True.intro, fun h s _ => h s⟩

theorem handles (handler : ParseError → Nat → Run Revision) : hR.contract.Handles handler := by
  intro s t e ht _
  exact (Ensures.trivial _).mono fun r _ => hR.trans ht (hR.withError t _)

theorem keeps_sequenceFrom {ps : List Parser} (hps : ∀ p ∈ ps, Keeps R p)
    (results : List Value) : Keeps R (sequenceFrom ps results) :=
  hR.metBy_iff.mp (hR.contract.metBy_sequenceFrom (fun p hp => hR.metBy_iff.mpr (hps p hp)) results)

theorem ensures_collect (hp : Keeps R p) (fuel : Nat) (results : List Value) (s : State) :
    (collect p fuel results s).Ensures fun harvest => R s harvest.state :=
  (hR.contract.ensures_collect (hR.metBy_iff.mpr hp) fuel results True.intro).mono fun _ h => h.2

theorem ensures_collectSeparated (hp : Keeps R p) (hq : Keeps R q) (fuel : Nat)
    (results : List Value) (s : State) :
    (collectSeparated p q fuel results s).Ensures fun harvest => R s harvest.state :=
  (hR.contract.ensures_collectSeparated (hR.metBy_iff.mpr hp) (hR.metBy_iff.mpr hq) fuel results
    True.intro).mono fun _ h => h.2

end Frame

end Parser

namespace Grammar

open Descent.Parser (Keeps Frame Contract)

variable {R : State → State → Prop} {c : Contract} {rules : Rules}

/-- The contract is met at this node, as far as the node itself decides it. -/
def MetAt (c : Contract) : Grammar → Prop
  | .custom _ step => c.MetBy fun s => (step s).run
  | .literal text => c.MetBy (Parser.literal text)
  | .regex name pattern => c.MetBy (Parser.regex name pattern)
  | .errorMap _ handler => c.Handles fun e cursor => (handler e cursor).run
  | _ => True

/-- **A contract that is met at every node is met by the grammar.** -/
theorem parser_meets (hrules : rules.Everywhere (MetAt c))
    (fuel : Nat) (g : Grammar) (hg : Everywhere (MetAt c) g) : c.MetBy (g.parser rules fuel) := by
  induction fuel generalizing g with
  | zero => exact fun s _ => .exhausted
  | succ fuel ih =>
    have hpart : ∀ p, Part p g → c.MetBy (p.parser rules fuel) := fun p hp => ih p (hg.part hp)
    cases g with
    | custom _ _ => exact hg.here
    | literal _ => exact hg.here
    | regex _ _ => exact hg.here
    | succeed value => exact c.metBy_succeed value
    | fail message => exact c.metBy_fail message
    | endOfInput => exact c.metBy_endOfInput
    | trace label => exact c.metBy_trace label
    | sequence parts =>
      apply c.metBy_sequence
      intro p hp
      obtain ⟨g, hg, rfl⟩ := List.mem_map.mp hp
      exact hpart g (.sequence hg)
    | choice alternatives =>
      apply c.metBy_choice
      intro p hp
      obtain ⟨g, hg, rfl⟩ := List.mem_map.mp hp
      exact hpart g (.choice hg)
    | many item => exact c.metBy_many (hpart item (.many item)) fuel
    | many1 item => exact c.metBy_many1 (hpart item (.many1 item)) fuel
    | sepBy separator value =>
      exact c.metBy_sepBy (hpart separator (.sepBySeparator separator value))
        (hpart value (.sepByValue separator value)) fuel
    | sepBy1 separator value =>
      exact c.metBy_sepBy1 (hpart separator (.sepBy1Separator separator value))
        (hpart value (.sepBy1Value separator value)) fuel
    | traced label body => exact c.metBy_traced label (hpart body (.traced label body))
    | map body f =>
      simp only [parser]
      exact c.metBy_map _ (hpart body (.map body f))
    | chain body prepare next =>
      simp only [parser]
      apply c.metBy_chain (hpart body (.chainBody body prepare next))
      intro v
      exact .bind (.trivial _) fun w _ => .pure (hpart (next w) (.chainNext body prepare next w))
    | errorMap body handler =>
      simp only [parser]
      exact c.metBy_errorMap (hpart body (.errorMap body handler)) hg.here
    | named body name => exact hpart body (.named body name)
    | lazy touch body =>
      simp only [parser]
      apply c.metBy_lazy
      exact .bind (.trivial _) fun _ _ => .pure (hpart body (.lazy touch body))
    | rule name =>
      simp only [parser]
      cases hname : rules.lookup name with
      | none => exact fun s _ => .raise _
      | some body => exact ih body (hrules name body hname)

/-- As `parser_meets`, where another property of the nodes is what makes them meet the
    contract. -/
theorem parser_meets_of {ok : Grammar → Prop} (hnode : ∀ node, ok node → node.MetAt c)
    (hrules : rules.Everywhere ok) {g : Grammar} (hg : Everywhere ok g) (fuel : Nat) :
    c.MetBy (g.parser rules fuel) := by
  apply parser_meets
  · intro name body hlookup
    exact (hrules name body hlookup).mono hnode
  · exact hg.mono hnode

/-- The relation is kept at this node, if it is a leaf that can move the cursor. -/
def KeptByLeaf (R : State → State → Prop) : Grammar → Prop
  | .custom _ step => Keeps R fun s => (step s).run
  | .literal text => Keeps R (Parser.literal text)
  | .regex name pattern => Keeps R (Parser.regex name pattern)
  | _ => True

theorem KeptByLeaf.metAt (hR : Frame R) {g : Grammar} (h : g.KeptByLeaf R) :
    g.MetAt hR.contract := by
  cases g with
  | custom _ _ => exact hR.metBy_iff.mpr h
  | literal _ => exact hR.metBy_iff.mpr h
  | regex _ _ => exact hR.metBy_iff.mpr h
  | errorMap _ handler => exact hR.handles fun e cursor => (handler e cursor).run
  | _ => exact True.intro

/-- **A frame that the leaves keep is kept by the grammar.** -/
theorem keeps_of_frame (hR : Frame R) (hrules : rules.Everywhere (KeptByLeaf R)) (fuel : Nat)
    (g : Grammar) (hg : Everywhere (KeptByLeaf R) g) : Keeps R (g.parser rules fuel) :=
  hR.metBy_iff.mp (parser_meets_of (fun _ => KeptByLeaf.metAt hR) hrules hg fuel)

/-- What every fuel keeps is kept in the end. -/
theorem meaning_keeps {g : Grammar} (h : ∀ fuel, Keeps R (g.parser rules fuel)) :
    Keeps R (g.meaning rules) :=
  fun s => .limit fun fuel => h fuel s

end Grammar

end Descent
