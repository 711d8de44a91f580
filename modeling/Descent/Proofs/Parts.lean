/-
  Descent/Proofs/Parts.lean
  =========================
  **The parts of a grammar, and what holds at every node.**

  `Part p g` says that `p` is an immediate part of `g`; a continuation has a part
  for each value that it may be given.  Every grammar is reached by going from parts
  to wholes (`induction_on_parts`).  A class of grammars that is closed under taking
  parts is given by what its nodes are like, through `Everywhere`.

  References to rules are not followed: a rule has no parts.  Where they are to be
  followed, a table says what they lead to (`Throughout`).
-/
import Descent.Grammar.Meaning
import Mathlib.Logic.Relation

namespace Descent

namespace Grammar

/-- `Part p g`: the grammar `p` is an immediate part of `g`. -/
inductive Part : Grammar → Grammar → Prop where
  | sequence {p : Grammar} {parts : List Grammar} (h : p ∈ parts) : Part p (.sequence parts)
  | choice {p : Grammar} {alternatives : List Grammar} (h : p ∈ alternatives) :
      Part p (.choice alternatives)
  | many (item : Grammar) : Part item (.many item)
  | many1 (item : Grammar) : Part item (.many1 item)
  | sepBySeparator (separator value : Grammar) : Part separator (.sepBy separator value)
  | sepByValue (separator value : Grammar) : Part value (.sepBy separator value)
  | sepBy1Separator (separator value : Grammar) : Part separator (.sepBy1 separator value)
  | sepBy1Value (separator value : Grammar) : Part value (.sepBy1 separator value)
  | traced (label : String) (body : Grammar) : Part body (.traced label body)
  | map (body : Grammar) (f : Value → Response Value) : Part body (.map body f)
  | chainBody (body : Grammar) (prepare : Value → Response Value) (next : Value → Grammar) :
      Part body (.chain body prepare next)
  | chainNext (body : Grammar) (prepare : Value → Response Value) (next : Value → Grammar)
      (v : Value) : Part (next v) (.chain body prepare next)
  | errorMap (body : Grammar) (handler : ParseError → Nat → Response Revision) :
      Part body (.errorMap body handler)
  | named (body : Grammar) (name : String) : Part body (.named body name)
  | lazy (touch : Response Unit) (body : Grammar) : Part body (.lazy touch body)

/-- What passes from all immediate parts to the whole holds of every grammar. -/
theorem induction_on_parts {P : Grammar → Prop}
    (step : ∀ g, (∀ p, Part p g → P p) → P g) (g : Grammar) : P g := by
  refine @Grammar.rec P (fun l => ∀ p ∈ l, P p)
    ?custom ?literal ?regex ?succeed ?fail ?endOfInput ?sequence ?choice ?many ?many1 ?sepBy
    ?sepBy1 ?trace ?traced ?map ?chain ?errorMap ?named ?lazy ?rule ?nil ?cons g
  case nil => exact fun p hp => (List.not_mem_nil hp).elim
  case cons =>
    intro g l hg hl p hp
    rcases List.mem_cons.mp hp with rfl | hp
    · exact hg
    · exact hl p hp
  case sequence =>
    intro parts ih
    exact step _ fun p hp => by cases hp with | sequence h => exact ih p h
  case choice =>
    intro alternatives ih
    exact step _ fun p hp => by cases hp with | choice h => exact ih p h
  case sepBy =>
    intro separator value hs hv
    exact step _ fun p hp => by cases hp <;> assumption
  case sepBy1 =>
    intro separator value hs hv
    exact step _ fun p hp => by cases hp <;> assumption
  case chain =>
    intro body prepare next hbody hnext
    exact step _ fun p hp => by
      cases hp with
      | chainBody => exact hbody
      | chainNext _ _ _ v => exact hnext v
  all_goals
    intros
    exact step _ fun p hp => by cases hp <;> assumption

/-- The property holds at every node of the grammar. -/
inductive Everywhere (ok : Grammar → Prop) : Grammar → Prop where
  | intro {g : Grammar} (here : ok g) (parts : ∀ p, Part p g → Everywhere ok p) :
      Everywhere ok g

namespace Everywhere

variable {ok : Grammar → Prop} {g p : Grammar}

theorem here (h : Everywhere ok g) : ok g := by
  cases h with
  | intro here _ => exact here

theorem part (h : Everywhere ok g) (hp : Part p g) : Everywhere ok p := by
  cases h with
  | intro _ parts => exact parts p hp

theorem mono {ok' : Grammar → Prop} (h : Everywhere ok g) (himp : ∀ g, ok g → ok' g) :
    Everywhere ok' g := by
  induction h with
  | intro here _ ih => exact .intro (himp _ here) ih

theorem and {ok' : Grammar → Prop} (h : Everywhere ok g) (h' : Everywhere ok' g) :
    Everywhere (fun node => ok node ∧ ok' node) g := by
  induction h with
  | intro here _ ih => exact .intro ⟨here, h'.here⟩ fun p hp => ih p hp (h'.part hp)

end Everywhere

section Shapes

variable {ok : Grammar → Prop} {g : Grammar}

theorem everywhere_iff : Everywhere ok g ↔ ok g ∧ ∀ p, Part p g → Everywhere ok p :=
  ⟨fun h => ⟨h.here, fun _ hp => h.part hp⟩, fun h => .intro h.1 h.2⟩

theorem everywhere_leaf (h : ∀ p, ¬Part p g) : Everywhere ok g ↔ ok g := by
  rw [everywhere_iff]
  exact and_iff_left fun p hp => absurd hp (h p)

theorem everywhere_of_body {body : Grammar} (h : ∀ p, Part p g ↔ p = body) :
    Everywhere ok g ↔ ok g ∧ Everywhere ok body := by
  rw [everywhere_iff]
  simp only [h, forall_eq]

@[simp] theorem everywhere_custom {name : String} {step : State → Response State} :
    Everywhere ok (custom name step) ↔ ok (custom name step) :=
  everywhere_leaf nofun

@[simp] theorem everywhere_literal {text : String} :
    Everywhere ok (literal text) ↔ ok (literal text) :=
  everywhere_leaf nofun

@[simp] theorem everywhere_regex {name : String} {pattern : Pattern} :
    Everywhere ok (regex name pattern) ↔ ok (regex name pattern) :=
  everywhere_leaf nofun

@[simp] theorem everywhere_succeed {value : Value} :
    Everywhere ok (succeed value) ↔ ok (succeed value) :=
  everywhere_leaf nofun

@[simp] theorem everywhere_fail {message : String} :
    Everywhere ok (fail message) ↔ ok (fail message) :=
  everywhere_leaf nofun

@[simp] theorem everywhere_endOfInput : Everywhere ok endOfInput ↔ ok endOfInput :=
  everywhere_leaf nofun

@[simp] theorem everywhere_trace {label : String} :
    Everywhere ok (trace label) ↔ ok (trace label) :=
  everywhere_leaf nofun

@[simp] theorem everywhere_rule {name : String} : Everywhere ok (rule name) ↔ ok (rule name) :=
  everywhere_leaf nofun

@[simp] theorem everywhere_sequence {parts : List Grammar} :
    Everywhere ok (sequence parts) ↔ ok (sequence parts) ∧ ∀ p ∈ parts, Everywhere ok p := by
  rw [everywhere_iff]
  refine and_congr_right fun _ => forall_congr' fun p => imp_congr_left ?_
  exact ⟨fun | .sequence h => h, .sequence⟩

@[simp] theorem everywhere_choice {alternatives : List Grammar} :
    Everywhere ok (choice alternatives) ↔
      ok (choice alternatives) ∧ ∀ p ∈ alternatives, Everywhere ok p := by
  rw [everywhere_iff]
  refine and_congr_right fun _ => forall_congr' fun p => imp_congr_left ?_
  exact ⟨fun | .choice h => h, .choice⟩

@[simp] theorem everywhere_many {item : Grammar} :
    Everywhere ok (many item) ↔ ok (many item) ∧ Everywhere ok item :=
  everywhere_of_body fun _ => ⟨fun | .many _ => rfl, fun h => h ▸ .many item⟩

@[simp] theorem everywhere_many1 {item : Grammar} :
    Everywhere ok (many1 item) ↔ ok (many1 item) ∧ Everywhere ok item :=
  everywhere_of_body fun _ => ⟨fun | .many1 _ => rfl, fun h => h ▸ .many1 item⟩

@[simp] theorem everywhere_traced {label : String} {body : Grammar} :
    Everywhere ok (traced label body) ↔ ok (traced label body) ∧ Everywhere ok body :=
  everywhere_of_body fun _ => ⟨fun | .traced _ _ => rfl, fun h => h ▸ .traced label body⟩

@[simp] theorem everywhere_map {body : Grammar} {f : Value → Response Value} :
    Everywhere ok (map body f) ↔ ok (map body f) ∧ Everywhere ok body :=
  everywhere_of_body fun _ => ⟨fun | .map _ _ => rfl, fun h => h ▸ .map body f⟩

@[simp] theorem everywhere_errorMap {body : Grammar}
    {handler : ParseError → Nat → Response Revision} :
    Everywhere ok (errorMap body handler) ↔ ok (errorMap body handler) ∧ Everywhere ok body :=
  everywhere_of_body fun _ => ⟨fun | .errorMap _ _ => rfl, fun h => h ▸ .errorMap body handler⟩

@[simp] theorem everywhere_named {body : Grammar} {name : String} :
    Everywhere ok (named body name) ↔ ok (named body name) ∧ Everywhere ok body :=
  everywhere_of_body fun _ => ⟨fun | .named _ _ => rfl, fun h => h ▸ .named body name⟩

@[simp] theorem everywhere_lazy {touch : Response Unit} {body : Grammar} :
    Everywhere ok (lazy touch body) ↔ ok (lazy touch body) ∧ Everywhere ok body :=
  everywhere_of_body fun _ => ⟨fun | .lazy _ _ => rfl, fun h => h ▸ .lazy touch body⟩

@[simp] theorem everywhere_sepBy {separator value : Grammar} :
    Everywhere ok (sepBy separator value) ↔
      ok (sepBy separator value) ∧ Everywhere ok separator ∧ Everywhere ok value := by
  rw [everywhere_iff]
  refine and_congr_right fun _ => ⟨fun h => ?_, fun h p hp => ?_⟩
  · exact ⟨h separator (.sepBySeparator separator value), h value (.sepByValue separator value)⟩
  · cases hp
    · exact h.1
    · exact h.2

@[simp] theorem everywhere_sepBy1 {separator value : Grammar} :
    Everywhere ok (sepBy1 separator value) ↔
      ok (sepBy1 separator value) ∧ Everywhere ok separator ∧ Everywhere ok value := by
  rw [everywhere_iff]
  refine and_congr_right fun _ => ⟨fun h => ?_, fun h p hp => ?_⟩
  · exact ⟨h separator (.sepBy1Separator separator value), h value (.sepBy1Value separator value)⟩
  · cases hp
    · exact h.1
    · exact h.2

@[simp] theorem everywhere_chain {body : Grammar} {prepare : Value → Response Value}
    {next : Value → Grammar} :
    Everywhere ok (chain body prepare next) ↔
      ok (chain body prepare next) ∧ Everywhere ok body ∧ ∀ v, Everywhere ok (next v) := by
  rw [everywhere_iff]
  refine and_congr_right fun _ => ⟨fun h => ?_, fun h p hp => ?_⟩
  · exact ⟨h body (.chainBody body prepare next),
      fun v => h (next v) (.chainNext body prepare next v)⟩
  · cases hp with
    | chainBody => exact h.1
    | chainNext _ _ _ v => exact h.2 v

end Shapes

/-- Whether the node is a user-written step. -/
def IsStep : Grammar → Prop
  | .custom _ _ => True
  | _ => False

/-- The grammar is made of what the library offers, without user-written steps. -/
def StepFree (g : Grammar) : Prop := Everywhere (fun node => ¬node.IsStep) g

/-- If the node is a user-written step, it is one of the given kind. -/
def StepIs (kind : (State → Response State) → Prop) : Grammar → Prop
  | .custom _ step => kind step
  | _ => True

/-- All user-written steps in the grammar are of the given kind. -/
def StepsAre (kind : (State → Response State) → Prop) (g : Grammar) : Prop :=
  Everywhere (StepIs kind) g

theorem StepFree.stepsAre {kind : (State → Response State) → Prop} {g : Grammar}
    (h : g.StepFree) : g.StepsAre kind := by
  apply h.mono
  intro node hnode
  cases node with
  | custom _ _ => exact absurd True.intro hnode
  | _ => exact True.intro

end Grammar

namespace Rules

variable {rules : Rules}

/-- Every rule of the table is made of what the library offers. -/
def StepFree (rules : Rules) : Prop :=
  ∀ name body, rules.lookup name = some body → body.StepFree

/-- The property holds at every node of every rule. -/
def Everywhere (ok : Grammar → Prop) (rules : Rules) : Prop :=
  ∀ name body, rules.lookup name = some body → Grammar.Everywhere ok body

/-- All user-written steps in the rules are of the given kind. -/
def StepsAre (kind : (State → Response State) → Prop) (rules : Rules) : Prop :=
  rules.Everywhere (Grammar.StepIs kind)

theorem everywhere_of_mem {ok : Grammar → Prop}
    (h : ∀ rule ∈ rules, Grammar.Everywhere ok rule.2) : rules.Everywhere ok := by
  intro name body hlookup
  obtain ⟨before, after, rfl, _⟩ := List.lookup_eq_some_iff.mp hlookup
  exact h (name, body) (by simp)

theorem StepFree.stepsAre {kind : (State → Response State) → Prop} (h : rules.StepFree) :
    rules.StepsAre kind :=
  fun name body hlookup => (h name body hlookup).stepsAre

end Rules

/-! ### Following references -/

namespace Grammar

open Relation (ReflTransGen)

/-- `Mentions rules g p`: the grammar `p` is an immediate part of `g`, or what `g`
    refers to. -/
inductive Mentions (rules : Rules) : Grammar → Grammar → Prop where
  | part {g p : Grammar} (h : Part p g) : Mentions rules g p
  | rule {name : String} {body : Grammar} (h : rules.lookup name = some body) :
      Mentions rules (.rule name) body

/-- The property holds at every node of the grammar, and of the rules that it refers to,
    be it directly or through other rules. -/
def Throughout (rules : Rules) (ok : Grammar → Prop) (g : Grammar) : Prop :=
  ∀ node, ReflTransGen (Mentions rules) g node → ok node

namespace Throughout

variable {rules : Rules} {ok : Grammar → Prop} {g p : Grammar}

theorem here (h : Throughout rules ok g) : ok g := h g .refl

theorem part (h : Throughout rules ok g) (hp : Part p g) : Throughout rules ok p :=
  fun node hnode => h node (.head (.part hp) hnode)

theorem rule {name : String} {body : Grammar} (h : Throughout rules ok (.rule name))
    (hbody : rules.lookup name = some body) : Throughout rules ok body :=
  fun node hnode => h node (.head (.rule hbody) hnode)

theorem of_everywhere (hrules : rules.Everywhere ok) (hg : Everywhere ok g) :
    Throughout rules ok g := by
  intro node hnode
  suffices h : Everywhere ok node from h.here
  induction hnode with
  | refl => exact hg
  | tail _ hmentions ih =>
    cases hmentions with
    | part hpart => exact ih.part hpart
    | rule hbody => exact hrules _ _ hbody

end Throughout

end Grammar

end Descent
