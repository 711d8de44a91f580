/-
  Descent/Proofs/Peg/Basic.lean
  =============================
  **Parsing expressions and what they derive.**

  A parsing expression either matches from one place of a text up to another or
  fails; `Derives` says which, by the usual rules: a choice looks at its second
  alternative only where the first fails, and a star goes on as long as its body
  matches.  An expression that does neither, such as a nonterminal that stands for
  itself, derives nothing.

  `Follows` gives the same expressions a meaning by recursion on the expression,
  once it is settled what the nonterminals do.  Whatever is derived follows, for
  every account of the nonterminals that goes with the table (`Derives.follows`).
-/
import Mathlib.Logic.Relation
import Descent.Proofs.Matching

namespace Descent

inductive Peg where
  | empty
  | fail
  | literal (cs : List Char)
  | one (ok : Char → Bool)
  | seq (first second : Peg)
  | alt (first second : Peg)
  | star (body : Peg)
  | not (body : Peg)
  | nonterminal (name : String)

namespace Peg

/-! ### Derived forms -/

def any : Peg := .one fun _ => true

def plus (body : Peg) : Peg := .seq body (.star body)

def opt (body : Peg) : Peg := .alt body .empty

/-- Values with a separator between them, and perhaps one more separator. -/
def separated (separator value : Peg) : Peg :=
  .seq value (.seq (.star (.seq separator value)) (opt separator))

def concat : List Peg → Peg
  | [] => .empty
  | e :: es => .seq e (concat es)

def firstOf : List Peg → Peg
  | [] => .fail
  | e :: es => .alt e (firstOf es)

/-- Whether one character of the class stands at a place. -/
def oneAt (input : Text) (ok : Char → Bool) (i : Nat) : Bool :=
  match input.get? i with
  | some c => ok c
  | none => false

/-- Some character stands at a place unless nothing is left from there on. -/
theorem oneAt_any (input : Text) (i : Nat) :
    oneAt input (fun _ => true) i = true ↔ input.toList.drop i ≠ [] := by
  unfold oneAt
  cases hget : input.get? i with
  | none => simp [Text.drop_of_get?_none hget]
  | some c => simp [Text.drop_of_get? hget]

/-! ### Derivations -/

/-- `Derives table input e i (some k)`: the expression matches from `i` up to `k`;
    `Derives table input e i none`: it fails at `i`. -/
inductive Derives (table : String → Option Peg) (input : Text) : Peg → Nat → Option Nat → Prop where
  | empty (i : Nat) : Derives table input .empty i (some i)
  | fail (i : Nat) : Derives table input .fail i none
  | literal {cs : List Char} {i : Nat} (h : cs <+: input.toList.drop i) :
      Derives table input (.literal cs) i (some (i + cs.length))
  | literalFails {cs : List Char} {i : Nat} (h : ¬cs <+: input.toList.drop i) :
      Derives table input (.literal cs) i none
  | one {ok : Char → Bool} {i : Nat} (h : oneAt input ok i = true) :
      Derives table input (.one ok) i (some (i + 1))
  | oneFails {ok : Char → Bool} {i : Nat} (h : oneAt input ok i = false) :
      Derives table input (.one ok) i none
  | seq {e f : Peg} {i k : Nat} {o : Option Nat} (he : Derives table input e i (some k))
      (hf : Derives table input f k o) : Derives table input (.seq e f) i o
  | seqFails {e f : Peg} {i : Nat} (he : Derives table input e i none) :
      Derives table input (.seq e f) i none
  | altFirst {e f : Peg} {i k : Nat} (he : Derives table input e i (some k)) :
      Derives table input (.alt e f) i (some k)
  | altSecond {e f : Peg} {i : Nat} {o : Option Nat} (he : Derives table input e i none)
      (hf : Derives table input f i o) : Derives table input (.alt e f) i o
  | starMore {e : Peg} {i k : Nat} {o : Option Nat} (he : Derives table input e i (some k))
      (hrest : Derives table input (.star e) k o) : Derives table input (.star e) i o
  | starDone {e : Peg} {i : Nat} (he : Derives table input e i none) :
      Derives table input (.star e) i (some i)
  | not {e : Peg} {i : Nat} (he : Derives table input e i none) :
      Derives table input (.not e) i (some i)
  | notFails {e : Peg} {i k : Nat} (he : Derives table input e i (some k)) :
      Derives table input (.not e) i none
  | nonterminal {name : String} {e : Peg} {i : Nat} {o : Option Nat} (hname : table name = some e)
      (he : Derives table input e i o) : Derives table input (.nonterminal name) i o

variable {table : String → Option Peg} {input : Text}

theorem Derives.le {e : Peg} {i k : Nat} (h : Derives table input e i (some k)) : i ≤ k := by
  generalize ho : some k = o at h
  induction h generalizing k with
  | empty i => cases ho; exact Nat.le_refl i
  | fail i => cases ho
  | literal h => cases ho; exact Nat.le_add_right _ _
  | literalFails h => cases ho
  | one h => cases ho; exact Nat.le_succ _
  | oneFails h => cases ho
  | seq he hf ihe ihf => exact Nat.le_trans (ihe rfl) (ihf ho)
  | seqFails he ih => cases ho
  | altFirst he ih => exact ih ho
  | altSecond he hf ihe ihf => exact ihf ho
  | starMore he hrest ihe ihrest => exact Nat.le_trans (ihe rfl) (ihrest ho)
  | starDone he ih => cases ho; exact Nat.le_refl _
  | not he ih => cases ho; exact Nat.le_refl _
  | notFails he ih => cases ho
  | nonterminal hname he ih => exact ih ho

/-- One more round in front of a star and of what comes behind it. -/
theorem Derives.star_seq_more {e f : Peg} {i k m : Nat} (he : Derives table input e i (some k))
    (h : Derives table input (.seq (.star e) f) k (some m)) :
    Derives table input (.seq (.star e) f) i (some m) := by
  cases h with
  | seq hstar hf => exact .seq (.starMore he hstar) hf

/-! ### The meaning of an expression, given that of the nonterminals -/

/-- What an expression does at a place, given what the nonterminals do. -/
def Follows (nonterminals : String → Nat → Option Nat → Prop) (input : Text) :
    Peg → Nat → Option Nat → Prop
  | .empty, i, o => o = some i
  | .fail, _, o => o = none
  | .literal cs, i, o =>
    (cs <+: input.toList.drop i ∧ o = some (i + cs.length)) ∨
      (¬cs <+: input.toList.drop i ∧ o = none)
  | .one ok, i, o => o = if oneAt input ok i then some (i + 1) else none
  | .seq e f, i, o =>
    (∃ k, Follows nonterminals input e i (some k) ∧ Follows nonterminals input f k o) ∨
      (Follows nonterminals input e i none ∧ o = none)
  | .alt e f, i, o =>
    (∃ k, Follows nonterminals input e i (some k) ∧ o = some k) ∨
      (Follows nonterminals input e i none ∧ Follows nonterminals input f i o)
  | .star e, i, o =>
    ∃ k, Relation.ReflTransGen (fun i k => Follows nonterminals input e i (some k)) i k ∧
      Follows nonterminals input e k none ∧ o = some k
  | .not e, i, o =>
    (Follows nonterminals input e i none ∧ o = some i) ∨
      (∃ k, Follows nonterminals input e i (some k) ∧ o = none)
  | .nonterminal name, i, o => nonterminals name i o

/-- **What is derived follows**, if the nonterminals do what follows for the
    expressions that the table has for them. -/
theorem Derives.follows {nonterminals : String → Nat → Option Nat → Prop}
    (htable : ∀ name e i o, table name = some e → Follows nonterminals input e i o →
      nonterminals name i o)
    {e : Peg} {i : Nat} {o : Option Nat} (h : Derives table input e i o) :
    Follows nonterminals input e i o := by
  induction h with
  | empty i => rfl
  | fail i => rfl
  | literal h => exact .inl ⟨h, rfl⟩
  | literalFails h => exact .inr ⟨h, rfl⟩
  | one h => simp [Follows, h]
  | oneFails h => simp [Follows, h]
  | seq _ _ ihe ihf => exact .inl ⟨_, ihe, ihf⟩
  | seqFails _ ih => exact .inr ⟨ih, rfl⟩
  | altFirst _ ih => exact .inl ⟨_, ih, rfl⟩
  | altSecond _ _ ihe ihf => exact .inr ⟨ihe, ihf⟩
  | starMore _ _ ihe ihrest =>
    obtain ⟨k, hsteps, hstop, ho⟩ := ihrest
    exact ⟨k, .head ihe hsteps, hstop, ho⟩
  | starDone _ ih => exact ⟨_, .refl, ih, rfl⟩
  | not _ ih => exact .inl ⟨ih, rfl⟩
  | notFails _ ih => exact .inr ⟨_, ih, rfl⟩
  | nonterminal hname _ ih => exact htable _ _ _ _ hname ih

/-! ### Runs of one class -/

section Class

variable {ok : Char → Bool} {i : Nat}

theorem runLength_of_oneAt (h : oneAt input ok i = true) :
    input.runLength ok i = input.runLength ok (i + 1) + 1 := by
  unfold oneAt at h
  split at h
  · exact Text.runLength_succ ‹_› h
  · cases h

theorem runLength_of_not_oneAt (h : oneAt input ok i = false) : input.runLength ok i = 0 := by
  unfold oneAt at h
  split at h
  · exact Text.runLength_stop ‹_› h
  · exact Text.runLength_end ‹_›

/-- A star of one class matches the whole run. -/
theorem derives_star_one (table : String → Option Peg) (input : Text) (ok : Char → Bool) (i : Nat) :
    Derives table input (.star (.one ok)) i (some (i + input.runLength ok i)) := by
  induction hlength : input.runLength ok i generalizing i with
  | zero =>
    refine .starDone (.oneFails ?_)
    cases hone : oneAt input ok i with
    | false => rfl
    | true => rw [runLength_of_oneAt hone] at hlength; cases hlength
  | succ n ih =>
    cases hone : oneAt input ok i with
    | false => rw [runLength_of_not_oneAt hone] at hlength; cases hlength
    | true =>
      rw [runLength_of_oneAt hone, Nat.add_right_cancel_iff] at hlength
      have hrest := ih (i + 1) hlength
      rw [Nat.add_assoc, Nat.add_comm 1 n] at hrest
      exact .starMore (.one hone) hrest

/-- One character of a class or more: the whole run, or a failure where it is empty. -/
theorem derives_plus_one (table : String → Option Peg) (input : Text) (ok : Char → Bool) (i : Nat) :
    Derives table input (plus (.one ok)) i
      (if input.runLength ok i = 0 then none else some (i + input.runLength ok i)) := by
  cases hone : oneAt input ok i with
  | false =>
    rw [if_pos (runLength_of_not_oneAt hone)]
    exact .seqFails (.oneFails hone)
  | true =>
    have hlength := runLength_of_oneAt hone
    have hrest := derives_star_one table input ok (i + 1)
    rw [if_neg (by omega), hlength]
    rw [Nat.add_assoc, Nat.add_comm 1] at hrest
    exact .seq (.one hone) hrest

theorem follows_plus_one {nonterminals : String → Nat → Option Nat → Prop} {o : Option Nat}
    (h : Follows nonterminals input (plus (.one ok)) i o) :
    o = if input.runLength ok i = 0 then none else some (i + input.runLength ok i) := by
  have hone : ∀ {i o}, Follows nonterminals input (.one ok) i o →
      o = if oneAt input ok i then some (i + 1) else none := fun h => h
  have hsteps : ∀ {i k}, Relation.ReflTransGen
      (fun i k => Follows nonterminals input (.one ok) i (some k)) i k →
      Follows nonterminals input (.one ok) k none → k = i + input.runLength ok i := by
    intro i k hreach hstop
    induction hreach using Relation.ReflTransGen.head_induction_on with
    | refl =>
      have hstop := hone hstop
      cases hat : oneAt input ok k with
      | false => rw [runLength_of_not_oneAt hat, Nat.add_zero]
      | true => rw [hat] at hstop; cases hstop
    | @head i m hstep _ ih =>
      have hstep := hone hstep
      cases hat : oneAt input ok i with
      | false => rw [hat] at hstep; cases hstep
      | true =>
        rw [hat, if_pos rfl, Option.some.injEq] at hstep
        have hlength := runLength_of_oneAt hat
        rw [hstep] at ih
        omega
  rcases h with ⟨k, hfirst, m, hreach, hstop, rfl⟩ | ⟨hfirst, rfl⟩
  · have hfirst := hone hfirst
    cases hat : oneAt input ok i with
    | false => rw [hat] at hfirst; cases hfirst
    | true =>
      rw [hat, if_pos rfl, Option.some.injEq] at hfirst
      have hlength := runLength_of_oneAt hat
      have hend := hsteps hreach hstop
      rw [hfirst] at hend
      rw [if_neg (by omega), Option.some.injEq]
      omega
  · have hfirst := hone hfirst
    cases hat : oneAt input ok i with
    | false => rw [if_pos (runLength_of_not_oneAt hat)]
    | true => rw [hat] at hfirst; cases hfirst

end Class

end Peg

end Descent
