/-
  Descent/Proofs/Loops.lean
  =========================
  **The loops without a bound on their rounds.**

  `gather` and `gatherSeparated` are `collect` and `collectSeparated` with as many
  rounds as it takes.  Each is described by the equation that unrolls its first
  round (`gather_eq`, `gatherSeparated_eq`); nothing else about them needs the limit
  they are defined by.

  A loop inside a grammar spends one and the same fuel on its rounds and on the
  parser that it repeats.  In the limit that makes no difference (`limit_many` and
  its siblings).
-/
import Descent.Proofs.Limit

namespace Descent

namespace Parser

variable {p q : Nat → Parser}

/-! ### Loops without a bound -/

/-- `collect` with as many rounds as it takes. -/
noncomputable def gather (p : Parser) (results : List Value) (s : State) : Run Harvest :=
  Run.limit fun fuel => collect p fuel results s

noncomputable def repeated (p : Parser) : Parser := fun s =>
  if s.isError then pure s
  else do
    let harvest ← gather p [] s
    pure (harvest.state.withResult (.list harvest.results))

noncomputable def repeated1 (p : Parser) : Parser := fun s =>
  if s.isError then pure s
  else do
    let harvest ← gather p [] s
    if harvest.results.isEmpty then
      pure (s.fail .repetitionEmpty
        ("many1: Unable to match any input using parser @ index " ++ toString s.cursor))
    else pure (harvest.state.withResult (.list harvest.results))

theorem collect_rising (p : Parser) (results : List Value) (s : State) :
    Run.Rising fun fuel => collect p fuel results s :=
  fun fuel => collect_extends (.refl p) fuel results s

/-- The first round of the loop, and the rest of it. -/
theorem gather_eq (p : Parser) (results : List Value) (s : State) :
    gather p results s = (do
      let attempt ← p s
      if attempt.isError then pure { results := results.reverse, state := s }
      else if attempt.cursor = s.cursor then
        pure { results := (attempt.result :: results).reverse, state := attempt }
      else gather p (attempt.result :: results) attempt) := by
  refine (collect_rising p results s).limit_tail.symm.trans ?_
  refine (Run.limit_bind_right (p s) fun t => ?_).trans ?_
  · exact .ite (.const _) (.ite (.const _) (collect_rising p (t.result :: results) t))
  · refine bind_congr fun t => ?_
    rw [Run.limit_ite, Run.limit_ite, Run.limit_const, Run.limit_const]
    rfl

theorem collect_mono {p q : Parser} (h : Parser.Extends p q) (fuel : Nat)
    (results : List Value) (s : State) :
    Run.Extends (collect p fuel results s) (collect q fuel results s) := by
  induction fuel generalizing results s with
  | zero => exact .refl _
  | succ fuel ih =>
    exact (h s).bind fun t => .ite (.refl _) (.ite (.refl _) (ih (t.result :: results) t))

theorem limit_collect_rounds (hp : Rising p) (rounds : Nat) (results : List Value) (s : State) :
    Run.limit (fun n => collect (p n) rounds results s) = collect (limit p) rounds results s := by
  induction rounds generalizing results s with
  | zero => exact Run.limit_const _
  | succ rounds ih =>
    refine (Run.limit_bind (hp.apply s) fun t => ?_).trans ?_
    · exact .ite (.const _) (.ite (.const _) fun n => collect_mono (hp n) rounds _ t)
    · refine bind_congr fun t => ?_
      rw [Run.limit_ite, Run.limit_ite, Run.limit_const, Run.limit_const, ih]

/-- Fuel for the rounds and fuel for the parser that is repeated may be the same. -/
theorem limit_collect (hp : Rising p) (results : List Value) (s : State) :
    Run.limit (fun n => collect (p n) n results s) = gather (limit p) results s := by
  have hdiagonal := Run.limit_diagonal (x := fun rounds n => collect (p n) rounds results s)
    (fun n => collect_rising (p n) results s) (fun rounds n => collect_mono (hp n) rounds results s)
  refine hdiagonal.trans ?_
  simp only [limit_collect_rounds hp]
  rfl

theorem limit_many (hp : Rising p) : limit (fun n => many n (p n)) = repeated (limit p) := by
  refine (limit_guarded _).trans (funext fun s => ?_)
  refine ite_congr rfl (fun _ => rfl) fun _ => ?_
  refine (Run.limit_bind_left (fun n => collect_extends (hp n) n [] s) _).trans ?_
  rw [limit_collect hp]

theorem limit_many1 (hp : Rising p) : limit (fun n => many1 n (p n)) = repeated1 (limit p) := by
  refine (limit_guarded _).trans (funext fun s => ?_)
  refine ite_congr rfl (fun _ => rfl) fun _ => ?_
  refine (Run.limit_bind_left (fun n => collect_extends (hp n) n [] s) _).trans ?_
  rw [limit_collect hp]

/-! ### Loops with a separator, without a bound -/

/-- `collectSeparated` with as many rounds as it takes. -/
noncomputable def gatherSeparated (sep value : Parser) (results : List Value) (s : State) :
    Run Harvest :=
  Run.limit fun fuel => collectSeparated sep value fuel results s

noncomputable def separated (sep value : Parser) : Parser := fun s =>
  if s.isError then pure s
  else do
    let harvest ← gatherSeparated sep value [] s
    pure (harvest.state.withResult (.list harvest.results))

noncomputable def separated1 (sep value : Parser) : Parser := fun s =>
  if s.isError then pure s
  else do
    let harvest ← gatherSeparated sep value [] s
    if harvest.results.isEmpty then
      pure (s.fail .repetitionEmpty
        ("sep_by1: Unable to capture any results at index " ++ toString s.cursor))
    else pure (harvest.state.withResult (.list harvest.results))

theorem collectSeparated_rising (sep value : Parser) (results : List Value) (s : State) :
    Run.Rising fun fuel => collectSeparated sep value fuel results s :=
  fun fuel => collectSeparated_extends (.refl sep) (.refl value) fuel results s

/-- The first round of the loop, and the rest of it. -/
theorem gatherSeparated_eq (sep value : Parser) (results : List Value) (s : State) :
    gatherSeparated sep value results s = (do
      let found ← value s
      if found.isError then pure { results := results.reverse, state := s }
      else do
        let behind ← sep found
        if behind.isError || behind.cursor == s.cursor then
          pure { results := (found.result :: results).reverse, state := found }
        else gatherSeparated sep value (found.result :: results) behind) := by
  refine (collectSeparated_rising sep value results s).limit_tail.symm.trans ?_
  have hrest : ∀ t u : State, Run.Rising fun fuel =>
      collectSeparated sep value fuel (t.result :: results) u :=
    fun t u => collectSeparated_rising sep value (t.result :: results) u
  refine (Run.limit_bind_right (value s) fun t => ?_).trans ?_
  · exact .ite (.const _) ((Run.Rising.const (sep t)).bind fun u => .ite (.const _) (hrest t u))
  · refine bind_congr fun t => ?_
    rw [Run.limit_ite, Run.limit_const]
    refine ite_congr rfl (fun _ => rfl) fun _ => ?_
    refine (Run.limit_bind_right (sep t) fun u => .ite (.const _) (hrest t u)).trans ?_
    refine bind_congr fun u => ?_
    rw [Run.limit_ite, Run.limit_const]
    rfl

theorem collectSeparated_mono {p q p' q' : Parser} (hs : Parser.Extends p p')
    (hv : Parser.Extends q q') (fuel : Nat) (results : List Value) (s : State) :
    Run.Extends (collectSeparated p q fuel results s) (collectSeparated p' q' fuel results s) := by
  induction fuel generalizing results s with
  | zero => exact .refl _
  | succ fuel ih =>
    exact (hv s).bind fun t => .ite (.refl _) ((hs t).bind fun u =>
      .ite (.refl _) (ih (t.result :: results) u))

theorem limit_collectSeparated_rounds (hp : Rising p) (hq : Rising q) (rounds : Nat)
    (results : List Value) (s : State) :
    Run.limit (fun n => collectSeparated (p n) (q n) rounds results s)
      = collectSeparated (limit p) (limit q) rounds results s := by
  induction rounds generalizing results s with
  | zero => exact Run.limit_const _
  | succ rounds ih =>
    have hrest : ∀ t u : State, Run.Rising fun n =>
        collectSeparated (p n) (q n) rounds (t.result :: results) u :=
      fun t u n => collectSeparated_mono (hp n) (hq n) rounds (t.result :: results) u
    refine (Run.limit_bind (hq.apply s) fun t => ?_).trans ?_
    · exact .ite (.const _) ((hp.apply t).bind fun u => .ite (.const _) (hrest t u))
    · refine bind_congr fun t => ?_
      rw [Run.limit_ite, Run.limit_const]
      refine ite_congr rfl (fun _ => rfl) fun _ => ?_
      refine (Run.limit_bind (hp.apply t) fun u => .ite (.const _) (hrest t u)).trans ?_
      refine bind_congr fun u => ?_
      rw [Run.limit_ite, Run.limit_const, ih]

theorem limit_collectSeparated (hp : Rising p) (hq : Rising q) (results : List Value)
    (s : State) :
    Run.limit (fun n => collectSeparated (p n) (q n) n results s)
      = gatherSeparated (limit p) (limit q) results s := by
  have hdiagonal := Run.limit_diagonal
    (x := fun rounds n => collectSeparated (p n) (q n) rounds results s)
    (fun n => collectSeparated_rising (p n) (q n) results s)
    (fun rounds n => collectSeparated_mono (hp n) (hq n) rounds results s)
  refine hdiagonal.trans ?_
  simp only [limit_collectSeparated_rounds hp hq]
  rfl

theorem limit_sepBy (hp : Rising p) (hq : Rising q) :
    limit (fun n => sepBy n (p n) (q n)) = separated (limit p) (limit q) := by
  refine (limit_guarded _).trans (funext fun s => ?_)
  refine ite_congr rfl (fun _ => rfl) fun _ => ?_
  refine (Run.limit_bind_left
    (fun n => collectSeparated_extends (hp n) (hq n) n [] s) _).trans ?_
  rw [limit_collectSeparated hp hq]

theorem limit_sepBy1 (hp : Rising p) (hq : Rising q) :
    limit (fun n => sepBy1 n (p n) (q n)) = separated1 (limit p) (limit q) := by
  refine (limit_guarded _).trans (funext fun s => ?_)
  refine ite_congr rfl (fun _ => rfl) fun _ => ?_
  refine (Run.limit_bind_left
    (fun n => collectSeparated_extends (hp n) (hq n) n [] s) _).trans ?_
  rw [limit_collectSeparated hp hq]

end Parser

end Descent
