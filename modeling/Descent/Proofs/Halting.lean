/-
  Descent/Proofs/Halting.lean
  ===========================
  **Runs that have an answer, and loops that come to an end.**

  A run halts if it has an answer from every journal, be it a value or a fault.  A
  loop halts when the parsers it applies halt and advance: a round that goes on has
  moved the cursor, and it cannot have moved it past the end, so less is left to
  read than before.
-/
import Descent.Proofs.Cursor

namespace Descent

namespace Run

variable {α β : Type} {P : α → Prop}

/-- The run has an answer, whatever the journal. -/
def Halts (x : Run α) : Prop := ∀ j, x j ≠ .exhausted

theorem Halts.pure (a : α) : (pure a : Run α).Halts := by
  intro j h
  cases h

theorem Halts.raise (fault : Fault) : (raise fault : Run α).Halts := by
  intro j h
  cases h

/-- What follows has to halt only for the values that are returned. -/
theorem Halts.bind {x : Run α} {f : α → Run β} (hx : x.Halts) (hp : x.Ensures P)
    (hf : ∀ a, P a → (f a).Halts) : (x >>= f).Halts := by
  intro j h
  rw [bind_apply] at h
  cases hj : x j with
  | returned a k =>
    rw [hj] at h
    exact hf a (hp j a k hj) k h
  | raised fault k => rw [hj] at h; cases h
  | exhausted => exact hx j hj

theorem Halts.bind_any {x : Run α} {f : α → Run β} (hx : x.Halts) (hf : ∀ a, (f a).Halts) :
    (x >>= f).Halts :=
  .bind hx (.trivial x) fun a _ => hf a

theorem Halts.ite {c : Prop} [Decidable c] {x y : Run α} (hx : c → x.Halts) (hy : ¬c → y.Halts) :
    (if c then x else y).Halts := by
  split
  · exact hx ‹c›
  · exact hy ‹¬c›

theorem halts_response (r : Response α) : r.run.Halts := by
  intro j h
  rw [Response.run] at h
  cases hr : r.outcome <;> rw [hr] at h <;> cases h

theorem halts_debugLine (line : String) : (debugLine line).Halts := by
  refine .bind_any (x := debugging) (fun j h => by cases h) fun debug => ?_
  exact .ite (fun _ j h => by cases h) fun _ => .pure ()

end Run

/-- How much is left to read. -/
def State.remaining (s : State) : Nat := s.input.size - s.cursor

namespace State.Advances

variable {s t : State}

theorem remaining_le (h : s.Advances t) : t.remaining ≤ s.remaining := by
  have hle := h.le
  simp only [remaining, h.input]
  omega

theorem remaining_lt (h : s.Advances t) (hmoved : s.cursor < t.cursor) :
    t.remaining < s.remaining := by
  have hbound := h.bound
  simp only [remaining, h.input]
  omega

theorem remaining_lt_of_ne (h : s.Advances t) (hne : t.cursor ≠ s.cursor) :
    t.remaining < s.remaining :=
  h.remaining_lt (Nat.lt_of_le_of_ne h.le hne.symm)

end State.Advances

namespace Parser

open Run (Halts Ensures)

variable {p q : Parser} {bound : Nat}

theorem halts_trace (label : String) (s : State) : (trace label s).Halts := by
  refine .bind_any (x := Run.debugging) (fun j h => by cases h) fun debug => ?_
  refine .ite (fun _ => ?_) fun _ => .pure s
  exact .bind_any (x := Run.write _) (fun j h => by cases h) fun _ => .pure s

theorem halts_traced (label : String) {s : State} (hp : (p s).Halts) :
    (traced label p s).Halts := by
  refine .ite (fun _ => .pure s) fun _ => .bind_any (Run.halts_debugLine _) fun _ => ?_
  refine .bind_any hp fun t => .ite (fun _ => ?_) fun _ => .pure t
  exact .bind_any (Run.halts_debugLine _) fun _ => .pure t

theorem halts_choiceFrom {ps : List Parser} {s : State} (h : ∀ p ∈ ps, (p s).Halts) :
    (choiceFrom ps s).Halts := by
  induction ps with
  | nil => exact .pure _
  | cons p ps ih =>
    refine .bind_any (h p List.mem_cons_self) fun t => .ite (fun _ => ?_) fun _ => .pure t
    exact ih fun q hq => h q (List.mem_cons_of_mem p hq)

/-- **A loop over a parser that halts and advances halts.** -/
theorem halts_gather (hp : Keeps State.Advances p)
    (hhalts : ∀ s : State, s.remaining ≤ bound → (p s).Halts) (results : List Value) (s : State)
    (hs : s.remaining ≤ bound) : (gather p results s).Halts := by
  induction hleft : s.remaining using Nat.strongRecOn generalizing results s with
  | ind left ih =>
    rw [gather_eq]
    refine .bind (hhalts s hs) (hp s) fun t hadvances => .ite (fun _ => .pure _) fun _ => ?_
    refine .ite (fun _ => .pure _) fun hmoved => ?_
    have hless := hadvances.remaining_lt_of_ne hmoved
    exact ih t.remaining (hleft ▸ hless) (t.result :: results) t (by omega) rfl

theorem halts_repeated (hp : Keeps State.Advances p)
    (hhalts : ∀ s : State, s.remaining ≤ bound → (p s).Halts) (s : State)
    (hs : s.remaining ≤ bound) : (repeated p s).Halts :=
  .ite (fun _ => .pure s) fun _ => .bind_any (halts_gather hp hhalts [] s hs) fun _ => .pure _

theorem halts_repeated1 (hp : Keeps State.Advances p)
    (hhalts : ∀ s : State, s.remaining ≤ bound → (p s).Halts) (s : State)
    (hs : s.remaining ≤ bound) : (repeated1 p s).Halts :=
  .ite (fun _ => .pure s) fun _ => .bind_any (halts_gather hp hhalts [] s hs) fun _ =>
    .ite (fun _ => .pure _) fun _ => .pure _

/-- **A loop over values and separators halts**, where the separator has to halt only
    behind a value. -/
theorem halts_gatherSeparated (hp : Keeps State.Advances p) (hq : Keeps State.Advances q)
    (hvalue : ∀ s : State, s.remaining ≤ bound → (q s).Halts)
    (hsep : ∀ s : State, s.remaining ≤ bound →
      (q s).Ensures fun t => t.isError = false → (p t).Halts)
    (results : List Value) (s : State) (hs : s.remaining ≤ bound) :
    (gatherSeparated p q results s).Halts := by
  induction hleft : s.remaining using Nat.strongRecOn generalizing results s with
  | ind left ih =>
    rw [gatherSeparated_eq]
    have hfound : (q s).Ensures fun t => s.Advances t ∧ (t.isError = false → (p t).Halts) :=
      fun j t k h => ⟨hq s j t k h, hsep s hs j t k h⟩
    refine .bind (hvalue s hs) hfound fun t ht => .ite (fun _ => .pure _) fun hok => ?_
    refine .bind (ht.2 (by simpa using hok)) (hp t) fun u hu => ?_
    refine .ite (fun _ => .pure _) fun hmoved => ?_
    simp only [Bool.or_eq_true, beq_iff_eq, not_or] at hmoved
    have hless := (State.Advances.frame.trans ht.1 hu).remaining_lt_of_ne hmoved.2
    exact ih u.remaining (hleft ▸ hless) (t.result :: results) u (by omega) rfl

theorem halts_separated (hp : Keeps State.Advances p) (hq : Keeps State.Advances q)
    (hvalue : ∀ s : State, s.remaining ≤ bound → (q s).Halts)
    (hsep : ∀ s : State, s.remaining ≤ bound →
      (q s).Ensures fun t => t.isError = false → (p t).Halts)
    (s : State) (hs : s.remaining ≤ bound) : (separated p q s).Halts :=
  .ite (fun _ => .pure s) fun _ =>
    .bind_any (halts_gatherSeparated hp hq hvalue hsep [] s hs) fun _ => .pure _

theorem halts_separated1 (hp : Keeps State.Advances p) (hq : Keeps State.Advances q)
    (hvalue : ∀ s : State, s.remaining ≤ bound → (q s).Halts)
    (hsep : ∀ s : State, s.remaining ≤ bound →
      (q s).Ensures fun t => t.isError = false → (p t).Halts)
    (s : State) (hs : s.remaining ≤ bound) : (separated1 p q s).Halts :=
  .ite (fun _ => .pure s) fun _ =>
    .bind_any (halts_gatherSeparated hp hq hvalue hsep [] s hs) fun _ =>
      .ite (fun _ => .pure _) fun _ => .pure _

end Parser

end Descent
