/-
  Descent/Proofs/Limit.lean
  =========================
  **What a run settles on when it is given ever more fuel.**

  A family of runs, one for each amount of fuel, is *rising* when more fuel never
  takes an answer back.  From each journal such a family is constant from some
  amount of fuel on (`Rising.settles`), and `limit` is the run that it settles on.
  It has no answer exactly where no amount of fuel finds one.

  Taking the limit commutes with going on with a value (`limit_bind`), and so with
  every operation on parsers that does not loop.
-/
import Descent.Grammar.Fuel

namespace Descent

namespace Run

variable {α β : Type}

/-- More fuel only ever extends the run. -/
def Rising (x : Nat → Run α) : Prop := ∀ n, Extends (x n) (x (n + 1))

/-- The run that enough fuel gives: its answer is the one that some fuel finds, if
    any does. -/
noncomputable def limit (x : Nat → Run α) : Run α := fun j =>
  open Classical in if h : ∃ n, x n j ≠ .exhausted then x h.choose j else .exhausted

/-! ### The order -/

theorem Extends.eq_of_answer {x y : Run α} (h : Extends x y) {j : Journal}
    (hx : x j ≠ .exhausted) : y j = x j :=
  (h j).resolve_left hx

theorem Extends.returned {x y : Run α} (h : Extends x y) {a : α} {j k : Journal}
    (hx : x j = .returned a k) : y j = .returned a k := by
  have hanswer : x j ≠ .exhausted := by rw [hx]; exact nofun
  exact (h.eq_of_answer hanswer).trans hx

theorem Extends.antisymm {x y : Run α} (hxy : Extends x y) (hyx : Extends y x) : x = y := by
  funext j
  rcases hxy j with hx | h
  · rcases hyx j with hy | h
    · rw [hx, hy]
    · exact h
  · exact h.symm

/-! ### Rising families -/

theorem Rising.const (x : Run α) : Rising fun _ => x := fun _ => .refl x

theorem Rising.extends_of_le {x : Nat → Run α} (hx : Rising x) {m n : Nat} (h : m ≤ n) :
    Extends (x m) (x n) := by
  induction h with
  | refl => exact .refl _
  | step _ ih => exact ih.trans (hx _)

theorem Rising.tail {x : Nat → Run α} (hx : Rising x) : Rising fun n => x (n + 1) :=
  fun n => hx (n + 1)

theorem Rising.bind {x : Nat → Run α} {f : Nat → α → Run β} (hx : Rising x)
    (hf : ∀ a, Rising fun n => f n a) : Rising fun n => x n >>= f n :=
  fun n => (hx n).bind fun a => hf a n

theorem Rising.ite {c : Prop} [Decidable c] {x y : Nat → Run α} (hx : Rising x)
    (hy : Rising y) : Rising fun n => if c then x n else y n :=
  fun n => .ite (hx n) (hy n)

/-! ### The limit -/

theorem limit_eq_of_forall_exhausted {x : Nat → Run α} {j : Journal}
    (h : ∀ n, x n j = .exhausted) : limit x j = .exhausted := by
  have hnone : ¬∃ n, x n j ≠ .exhausted := fun ⟨n, hn⟩ => hn (h n)
  simp only [limit, dif_neg hnone]

theorem Rising.limit_eq {x : Nat → Run α} (hx : Rising x) {j : Journal} {n : Nat}
    (hn : x n j ≠ .exhausted) : limit x j = x n j := by
  have hsome : ∃ n, x n j ≠ .exhausted := ⟨n, hn⟩
  simp only [limit, dif_pos hsome]
  rcases Nat.le_total hsome.choose n with hle | hle
  · exact ((hx.extends_of_le hle).eq_of_answer hsome.choose_spec).symm
  · exact (hx.extends_of_le hle).eq_of_answer hn

/-- From each journal a rising family is constant from some amount of fuel on. -/
theorem Rising.settles {x : Nat → Run α} (hx : Rising x) (j : Journal) :
    ∃ n, ∀ m, n ≤ m → x m j = limit x j := by
  by_cases h : ∃ n, x n j ≠ .exhausted
  · obtain ⟨n, hn⟩ := h
    refine ⟨n, fun m hm => ?_⟩
    rw [hx.limit_eq hn]
    exact (hx.extends_of_le hm).eq_of_answer hn
  · have hnone : ∀ n, x n j = .exhausted := fun n => Classical.not_not.mp fun hn => h ⟨n, hn⟩
    exact ⟨0, fun m _ => (hnone m).trans (limit_eq_of_forall_exhausted hnone).symm⟩

theorem Rising.limit_eq_of_settles {x : Nat → Run α} (hx : Rising x) {j : Journal} {n : Nat}
    {o : Outcome α} (h : ∀ m, n ≤ m → x m j = o) : limit x j = o := by
  obtain ⟨k, hk⟩ := hx.settles j
  rw [← hk (max n k) (Nat.le_max_right n k), h (max n k) (Nat.le_max_left n k)]

/-- With enough fuel, the run ends so. -/
def SettlesOn (x : Nat → Run α) (j : Journal) (o : Outcome α) : Prop :=
  ∃ n, ∀ m, n ≤ m → x m j = o

theorem Rising.settlesOn_iff {x : Nat → Run α} (hx : Rising x) {j : Journal} {o : Outcome α} :
    SettlesOn x j o ↔ limit x j = o := by
  constructor
  · rintro ⟨n, hn⟩
    exact hx.limit_eq_of_settles hn
  · rintro rfl
    exact hx.settles j

theorem exists_fuel_of_limit_ne {x : Nat → Run α} {j : Journal}
    (h : limit x j ≠ .exhausted) : ∃ n, x n j = limit x j := by
  by_cases hsome : ∃ n, x n j ≠ .exhausted
  · exact ⟨hsome.choose, by simp only [limit, dif_pos hsome]⟩
  · exact absurd (by simp only [limit, dif_neg hsome]) h

theorem Rising.extends_limit {x : Nat → Run α} (hx : Rising x) (n : Nat) :
    Extends (x n) (limit x) := by
  intro j
  by_cases h : x n j = .exhausted
  · exact .inl h
  · exact .inr (hx.limit_eq h)

theorem limit_extends {x : Nat → Run α} {y : Run α} (h : ∀ n, Extends (x n) y) :
    Extends (limit x) y := by
  intro j
  by_cases hl : limit x j = .exhausted
  · exact .inl hl
  · obtain ⟨n, hn⟩ := exists_fuel_of_limit_ne hl
    exact .inr (hn ▸ (h n).eq_of_answer (hn ▸ hl))

/-! ### Limits of what is built from runs -/

theorem limit_const (x : Run α) : limit (fun _ => x) = x :=
  (limit_extends fun _ => .refl x).antisymm ((Rising.const x).extends_limit 0)

/-- The first unit of fuel makes no difference in the end. -/
theorem Rising.limit_tail {x : Nat → Run α} (hx : Rising x) :
    limit (fun n => x (n + 1)) = limit x :=
  Extends.antisymm (limit_extends fun n => hx.extends_limit (n + 1))
    (limit_extends fun n => (hx n).trans (hx.tail.extends_limit n))

theorem limit_bind {x : Nat → Run α} {f : Nat → α → Run β} (hx : Rising x)
    (hf : ∀ a, Rising fun n => f n a) :
    limit (fun n => x n >>= f n) = limit x >>= fun a => limit fun n => f n a := by
  funext j
  obtain ⟨n, hn⟩ := hx.settles j
  rw [bind_apply]
  cases h : limit x j with
  | returned a k =>
    obtain ⟨m, hm⟩ := (hf a).settles k
    refine (hx.bind hf).limit_eq_of_settles fun i (hi : max n m ≤ i) => ?_
    rw [bind_apply, hn i (by omega), h]
    exact hm i (by omega)
  | raised fault k =>
    refine (hx.bind hf).limit_eq_of_settles fun i (hi : n ≤ i) => ?_
    rw [bind_apply, hn i hi, h]
  | exhausted =>
    refine (hx.bind hf).limit_eq_of_settles fun i (hi : n ≤ i) => ?_
    rw [bind_apply, hn i hi, h]

theorem limit_bind_left {x : Nat → Run α} (hx : Rising x) (f : α → Run β) :
    limit (fun n => x n >>= f) = limit x >>= f := by
  rw [limit_bind hx fun a => .const (f a)]
  simp only [limit_const]

theorem limit_bind_right {f : Nat → α → Run β} (x : Run α) (hf : ∀ a, Rising fun n => f n a) :
    limit (fun n => x >>= f n) = x >>= fun a => limit fun n => f n a := by
  rw [limit_bind (.const x) hf, limit_const]

theorem limit_ite {c : Prop} [Decidable c] {x y : Nat → Run α} :
    limit (fun n => if c then x n else y n) = if c then limit x else limit y := by
  split <;> rfl

/-- Two kinds of fuel that rise together find what they find one after the other. -/
theorem limit_diagonal {x : Nat → Nat → Run α} (hleft : ∀ n, Rising fun m => x m n)
    (hright : ∀ m, Rising (x m)) : limit (fun n => x n n) = limit fun m => limit (x m) := by
  have hdiagonal : Rising fun n => x n n := fun n => (hleft n n).trans (hright (n + 1) n)
  have houter : Rising fun m => limit (x m) := fun m =>
    limit_extends fun n => (hleft n m).trans ((hright (m + 1)).extends_limit n)
  refine Extends.antisymm (limit_extends fun n => ?_) (limit_extends fun m => ?_)
  · exact ((hright n).extends_limit n).trans (houter.extends_limit n)
  · refine limit_extends fun n => ?_
    have hbound : Extends (x m n) (x (max m n) (max m n)) :=
      ((hleft n).extends_of_le (Nat.le_max_left m n)).trans
        ((hright (max m n)).extends_of_le (Nat.le_max_right m n))
    exact hbound.trans (hdiagonal.extends_limit (max m n))

end Run

namespace Parser

/-! ### Limits of parsers -/

def Rising (p : Nat → Parser) : Prop := ∀ n, Parser.Extends (p n) (p (n + 1))

noncomputable def limit (p : Nat → Parser) : Parser := fun s => Run.limit fun n => p n s

theorem Rising.apply {p : Nat → Parser} (hp : Rising p) (s : State) : Run.Rising fun n => p n s :=
  fun n => hp n s

variable {p q : Nat → Parser}

theorem limit_const (p : Parser) : limit (fun _ => p) = p :=
  funext fun s => Run.limit_const (p s)

theorem Rising.limit_tail (hp : Rising p) : limit (fun n => p (n + 1)) = limit p :=
  funext fun s => (hp.apply s).limit_tail

theorem limit_map {f : Value → Run Value} (hp : Rising p) :
    limit (fun n => (p n).map f) = (limit p).map f :=
  funext fun s => Run.limit_bind_left (hp.apply s) _

theorem limit_errorMap {handler : ParseError → Nat → Run Revision} (hp : Rising p) :
    limit (fun n => (p n).errorMap handler) = (limit p).errorMap handler :=
  funext fun s => Run.limit_bind_left (hp.apply s) _

/-- A parser that leaves a failed state as it is, and its limit. -/
theorem limit_guarded (p : Nat → Parser) :
    limit (fun n s => if s.isError then pure s else p n s)
      = fun s => if s.isError then pure s else limit p s := by
  funext s
  simp only [limit, Run.limit_ite, Run.limit_const]

theorem limit_traced {label : String} (hp : Rising p) :
    limit (fun n => traced label (p n)) = traced label (limit p) := by
  refine (limit_guarded _).trans (funext fun s => ?_)
  refine ite_congr rfl (fun _ => rfl) fun _ => ?_
  refine (Run.limit_bind_right _ fun _ n => (hp n s).bind fun _ => .refl _).trans ?_
  exact bind_congr fun _ => Run.limit_bind_left (hp.apply s) _

theorem limit_chain {next : Nat → Value → Run Parser} (hp : Rising p)
    (hnext : ∀ v s, Run.Rising fun n => next n v >>= fun q => q s)
    {follow : Value → Run Parser}
    (hfollow : ∀ v s, Run.limit (fun n => next n v >>= fun q => q s) = follow v >>= fun q => q s) :
    limit (fun n => (p n).chain (next n)) = (limit p).chain follow := by
  funext s
  refine (Run.limit_bind (hp.apply s) fun t => .ite (.const _) (hnext t.result t)).trans ?_
  refine bind_congr fun t => ?_
  rw [Run.limit_ite, Run.limit_const, hfollow]

/-! ### Lists of parsers -/

section Lists

variable {ι : Type} {f : ι → Nat → Parser}

theorem limit_sequenceFrom (hf : ∀ i, Rising (f i)) (l : List ι) (results : List Value) :
    limit (fun n => sequenceFrom (l.map fun i => f i n) results)
      = sequenceFrom (l.map fun i => limit (f i)) results := by
  induction l generalizing results with
  | nil => exact limit_const _
  | cons i l ih =>
    funext s
    have hrest : ∀ t : State, Run.Rising fun n =>
        sequenceFrom (l.map fun i => f i n) (t.result :: results) t :=
      fun t n => sequenceFrom_extends (fun i => hf i n) l (t.result :: results) t
    refine (Run.limit_bind ((hf i).apply s) fun t => .ite (.const _) (hrest t)).trans ?_
    refine bind_congr fun t => ?_
    rw [Run.limit_ite, Run.limit_const, ← ih]
    rfl

theorem limit_sequence (hf : ∀ i, Rising (f i)) (l : List ι) :
    limit (fun n => sequence (l.map fun i => f i n)) = sequence (l.map fun i => limit (f i)) := by
  refine (limit_guarded _).trans (funext fun s => ?_)
  rw [limit_sequenceFrom hf]
  rfl

theorem limit_choiceFrom (hf : ∀ i, Rising (f i)) (l : List ι) :
    limit (fun n => choiceFrom (l.map fun i => f i n))
      = choiceFrom (l.map fun i => limit (f i)) := by
  induction l with
  | nil => exact limit_const _
  | cons i l ih =>
    funext s
    have hrest : Run.Rising fun n => choiceFrom (l.map fun i => f i n) s :=
      fun n => choiceFrom_extends (fun i => hf i n) l s
    refine (Run.limit_bind ((hf i).apply s) fun t => .ite hrest (.const _)).trans ?_
    refine bind_congr fun t => ?_
    rw [Run.limit_ite, Run.limit_const, ← ih]
    rfl

theorem limit_choice (hf : ∀ i, Rising (f i)) (l : List ι) :
    limit (fun n => choice (l.map fun i => f i n)) = choice (l.map fun i => limit (f i)) := by
  refine (limit_guarded _).trans (funext fun s => ?_)
  rw [limit_choiceFrom hf]
  rfl

end Lists

end Parser

end Descent
