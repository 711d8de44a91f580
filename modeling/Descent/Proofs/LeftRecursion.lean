/-
  Descent/Proofs/LeftRecursion.lean
  =================================
  **Grammars without left recursion terminate.**

  A reference is *leftmost* in a grammar when everything that is applied before it
  may succeed without reading (`Leftmost`).  Whether a part always reads something
  is judged from its shape (`Consumes`), and the judgement is sound
  (`consumes_sound`): a success of such a part has moved the cursor.

  If the rules can be ranked so that every leftmost reference in a rule goes to a
  rule of smaller rank, every application has an answer.  The measure is
  lexicographic: what is left to read, then the rank of the rule, then the tree.
  A part that is applied with less left to read falls under the first component; a
  part that is applied with as much left is leftmost, and falls under the second if
  it is a rule and under the third otherwise.
-/
import Descent.Proofs.Halting

namespace Descent

namespace Grammar

/-! ### Parts that read something, and references that nothing is read before -/

/-- A success of the grammar has read something, judged by its shape. -/
inductive Consumes (rules : Rules) : Grammar → Prop where
  | literal {text : String} (h : text ≠ "") : Consumes rules (.literal text)
  | regex (name : String) (pattern : Pattern) : Consumes rules (.regex name pattern)
  | fail (message : String) : Consumes rules (.fail message)
  | sequence {p : Grammar} {parts : List Grammar} (hp : p ∈ parts) (h : Consumes rules p) :
      Consumes rules (.sequence parts)
  | choice {alternatives : List Grammar} (h : ∀ p ∈ alternatives, Consumes rules p) :
      Consumes rules (.choice alternatives)
  | many1 {item : Grammar} (h : Consumes rules item) : Consumes rules (.many1 item)
  | sepBy1 {separator value : Grammar} (h : Consumes rules value) :
      Consumes rules (.sepBy1 separator value)
  | traced {label : String} {body : Grammar} (h : Consumes rules body) :
      Consumes rules (.traced label body)
  | map {body : Grammar} {f : Value → Response Value} (h : Consumes rules body) :
      Consumes rules (.map body f)
  | chainBody {body : Grammar} {prepare : Value → Response Value} {next : Value → Grammar}
      (h : Consumes rules body) : Consumes rules (.chain body prepare next)
  | chainNext {body : Grammar} {prepare : Value → Response Value} {next : Value → Grammar}
      (h : ∀ v, Consumes rules (next v)) : Consumes rules (.chain body prepare next)
  | errorMap {body : Grammar} {handler : ParseError → Nat → Response Revision}
      (h : Consumes rules body) : Consumes rules (.errorMap body handler)
  | named {body : Grammar} {name : String} (h : Consumes rules body) :
      Consumes rules (.named body name)
  | lazy {touch : Response Unit} {body : Grammar} (h : Consumes rules body) :
      Consumes rules (.lazy touch body)
  | rule {name : String} {body : Grammar} (hbody : rules.lookup name = some body)
      (h : Consumes rules body) : Consumes rules (.rule name)

/-- `Leftmost rules g target`: the grammar refers to the rule `target` at a place
    before which nothing need have been read. -/
inductive Leftmost (rules : Rules) : Grammar → String → Prop where
  | rule (name : String) : Leftmost rules (.rule name) name
  | sequence {before after : List Grammar} {p : Grammar} {target : String}
      (hbefore : ∀ q ∈ before, ¬Consumes rules q) (h : Leftmost rules p target) :
      Leftmost rules (.sequence (before ++ p :: after)) target
  | choice {alternatives : List Grammar} {p : Grammar} {target : String}
      (hp : p ∈ alternatives) (h : Leftmost rules p target) :
      Leftmost rules (.choice alternatives) target
  | many {item : Grammar} {target : String} (h : Leftmost rules item target) :
      Leftmost rules (.many item) target
  | many1 {item : Grammar} {target : String} (h : Leftmost rules item target) :
      Leftmost rules (.many1 item) target
  | sepByValue {separator value : Grammar} {target : String} (h : Leftmost rules value target) :
      Leftmost rules (.sepBy separator value) target
  | sepBySeparator {separator value : Grammar} {target : String}
      (hvalue : ¬Consumes rules value) (h : Leftmost rules separator target) :
      Leftmost rules (.sepBy separator value) target
  | sepBy1Value {separator value : Grammar} {target : String} (h : Leftmost rules value target) :
      Leftmost rules (.sepBy1 separator value) target
  | sepBy1Separator {separator value : Grammar} {target : String}
      (hvalue : ¬Consumes rules value) (h : Leftmost rules separator target) :
      Leftmost rules (.sepBy1 separator value) target
  | traced {label : String} {body : Grammar} {target : String} (h : Leftmost rules body target) :
      Leftmost rules (.traced label body) target
  | map {body : Grammar} {f : Value → Response Value} {target : String}
      (h : Leftmost rules body target) : Leftmost rules (.map body f) target
  | chainBody {body : Grammar} {prepare : Value → Response Value} {next : Value → Grammar}
      {target : String} (h : Leftmost rules body target) :
      Leftmost rules (.chain body prepare next) target
  | chainNext {body : Grammar} {prepare : Value → Response Value} {next : Value → Grammar}
      {target : String} (hbody : ¬Consumes rules body) (v : Value)
      (h : Leftmost rules (next v) target) : Leftmost rules (.chain body prepare next) target
  | errorMap {body : Grammar} {handler : ParseError → Nat → Response Revision} {target : String}
      (h : Leftmost rules body target) : Leftmost rules (.errorMap body handler) target
  | named {body : Grammar} {name : String} {target : String} (h : Leftmost rules body target) :
      Leftmost rules (.named body name) target
  | lazy {touch : Response Unit} {body : Grammar} {target : String}
      (h : Leftmost rules body target) : Leftmost rules (.lazy touch body) target

end Grammar

/-! ### The judgement is sound -/

/-- A step that, if it succeeds, has moved the cursor forward. -/
structure State.Reads (s t : State) : Prop where
  advances : s.Advances t
  lt : t.isError = false → s.cursor < t.cursor

namespace State.Reads

variable {s t u : State}

theorem of_failed (h : s.Advances t) (hfailed : t.isError = true) : s.Reads t := by
  refine ⟨h, fun hok => ?_⟩
  rw [hfailed] at hok
  cases hok

theorem trans_advances (h : s.Reads t) (hok : t.isError = false) (htu : t.Advances u) :
    s.Reads u :=
  ⟨Advances.frame.trans h.advances htu, fun _ => Nat.lt_of_lt_of_le (h.lt hok) htu.le⟩

theorem after_advances (hst : s.Advances t) (h : t.Reads u) : s.Reads u :=
  ⟨Advances.frame.trans hst h.advances, fun hok => Nat.lt_of_le_of_lt hst.le (h.lt hok)⟩

end State.Reads

namespace Parser

open Run (Ensures)

variable {p q : Parser}

theorem literal_reads {text : String} (htext : text ≠ "") :
    Keeps State.Reads (literal text) := by
  intro s j t k h
  refine ⟨literal_advances text s j t k h, fun hok => ?_⟩
  have hlength : 0 < text.length := by
    rcases Nat.eq_zero_or_pos text.length with hzero | hpos
    · exact absurd (String.length_eq_zero_iff.mp hzero) htext
    · exact hpos
  have hcases : (literal text s).Ensures fun t => t.isError = false → s.cursor < t.cursor := by
    refine .ite (fun hs => .pure fun hok => ?_) fun _ => .ite (fun _ => .pure fun hok => ?_) fun _ =>
      .ite (fun _ => .pure fun _ => ?_) fun _ => .pure fun hok => ?_
    · rw [hs] at hok
      cases hok
    · cases hok
    · exact Nat.lt_add_of_pos_right hlength
    · cases hok
  exact hcases j t k h hok

theorem regex_reads (name : String) (pattern : Pattern) :
    Keeps State.Reads (regex name pattern) := by
  intro s j t k h
  refine ⟨regex_advances name pattern s j t k h, fun hok => ?_⟩
  have hle := (regex_advances name pattern s j t k h).le
  have hcases : (regex name pattern s).Ensures fun t =>
      t.isError = false → t.cursor ≠ s.cursor := by
    refine .ite (fun hs => .pure fun hok => ?_) fun _ => .ite (fun _ => .pure fun hok => ?_) fun _ => ?_
    · rw [hs] at hok
      cases hok
    · cases hok
    · cases pattern.matchAt s.input s.cursor with
      | none => exact .pure fun hok => by cases hok
      | some stop =>
        exact .ite (fun _ => .pure fun hok => by cases hok) fun hne => .pure fun _ => hne
  have hne := hcases j t k h hok
  omega

theorem fail_reads (message : String) : Keeps State.Reads (Parser.fail message) := by
  intro s
  refine .ite (fun hs => ?_) fun _ => ?_
  · exact .pure (.of_failed (State.Advances.frame.refl s) hs)
  · exact .pure (.of_failed (.fail s _ _) rfl)

theorem map_reads (f : Value → Run Value) (hp : Keeps State.Reads p) :
    Keeps State.Reads (p.map f) := by
  intro s
  refine .bind (hp s) fun t ht => .ite (fun _ => .pure ht) fun hok => ?_
  refine .bind (.trivial _) fun v _ => .pure (ht.trans_advances ?_ ?_)
  · simpa using hok
  · exact State.Advances.frame.withResult t v

theorem errorMap_reads (handler : ParseError → Nat → Run Revision)
    (hp : Keeps State.Reads p) : Keeps State.Reads (p.errorMap handler) := by
  intro s
  refine .bind (hp s) fun t ht => ?_
  cases t.error with
  | none => exact .pure ht
  | some e =>
    refine .bind (.trivial _) fun r _ => .pure (.of_failed ?_ rfl)
    exact State.Advances.frame.trans ht.advances (State.Advances.frame.withError t _)

theorem traced_reads (label : String) (hp : Keeps State.Reads p) :
    Keeps State.Reads (traced label p) := by
  intro s
  refine .ite (fun hs => .pure (.of_failed (State.Advances.frame.refl s) hs)) fun _ => ?_
  refine .bind (.trivial _) fun _ _ => .bind (hp s) fun t ht => ?_
  refine .ite (fun _ => ?_) fun _ => .pure ht
  exact .bind (.trivial _) fun _ _ => .pure ht

theorem chain_reads_left {next : Value → Run Parser} (hp : Keeps State.Reads p)
    (hnext : ∀ v, (next v).Ensures (Keeps State.Advances)) :
    Keeps State.Reads (p.chain next) := by
  intro s
  refine .bind (hp s) fun t ht => .ite (fun _ => .pure ht) fun hok => ?_
  refine .bind (hnext t.result) fun q hq => (hq t).mono fun u hu => ?_
  exact ht.trans_advances (by simpa using hok) hu

theorem chain_reads_right {next : Value → Run Parser} (hp : Keeps State.Advances p)
    (hnext : ∀ v, (next v).Ensures (Keeps State.Reads)) :
    Keeps State.Reads (p.chain next) := by
  intro s
  refine .bind (hp s) fun t ht => .ite (fun hfailed => .pure (.of_failed ht hfailed)) fun _ => ?_
  exact .bind (hnext t.result) fun q hq => (hq t).mono fun u hu => .after_advances ht hu

/-- Of several parsers in a row it is enough that one reads. -/
theorem sequenceFrom_reads {ps : List Parser} (hps : ∀ p ∈ ps, Keeps State.Advances p)
    (hmem : p ∈ ps) (hp : Keeps State.Reads p) (results : List Value) :
    Keeps State.Reads (sequenceFrom ps results) := by
  induction ps generalizing results with
  | nil => exact absurd hmem List.not_mem_nil
  | cons q ps ih =>
    have hq : Keeps State.Advances q := hps q List.mem_cons_self
    have hrest : ∀ p ∈ ps, Keeps State.Advances p := fun p h => hps p (List.mem_cons_of_mem q h)
    intro s
    rcases List.mem_cons.mp hmem with rfl | hmem
    · refine .bind (hp s) fun t ht => .ite (fun _ => .pure ht) fun hok => ?_
      have hlater := State.Advances.frame.keeps_sequenceFrom hrest (t.result :: results) t
      exact hlater.mono fun u hu => ht.trans_advances (by simpa using hok) hu
    · refine .bind (hq s) fun t ht => .ite (fun hfailed => .pure (.of_failed ht hfailed)) fun _ => ?_
      exact (ih hrest hmem (t.result :: results) t).mono fun u hu => .after_advances ht hu

theorem sequence_reads {ps : List Parser} (hps : ∀ p ∈ ps, Keeps State.Advances p)
    (hmem : p ∈ ps) (hp : Keeps State.Reads p) : Keeps State.Reads (sequence ps) := by
  intro s
  refine .ite (fun hs => .pure (.of_failed (State.Advances.frame.refl s) hs)) fun _ => ?_
  exact sequenceFrom_reads hps hmem hp [] s

theorem choiceFrom_reads {ps : List Parser} (hps : ∀ p ∈ ps, Keeps State.Reads p) :
    Keeps State.Reads (choiceFrom ps) := by
  induction ps with
  | nil => exact fun s => .pure (.of_failed (.fail s _ _) rfl)
  | cons p ps ih =>
    intro s
    refine .bind (hps p List.mem_cons_self s) fun t ht => .ite (fun _ => ?_) fun _ => .pure ht
    exact ih (fun q hq => hps q (List.mem_cons_of_mem p hq)) s

theorem choice_reads {ps : List Parser} (hps : ∀ p ∈ ps, Keeps State.Reads p) :
    Keeps State.Reads (choice ps) := by
  intro s
  refine .ite (fun hs => .pure (.of_failed (State.Advances.frame.refl s) hs)) fun _ => ?_
  exact choiceFrom_reads hps s

/-- What a loop over a parser that reads gathers: nothing, or it has read. -/
theorem gather_reads (hp : Keeps State.Reads p) (s : State) :
    (gather p [] s).Ensures fun harvest =>
      harvest.results ≠ [] → s.Advances harvest.state ∧ s.cursor < harvest.state.cursor := by
  have hadvances : Keeps State.Advances p := fun s => (hp s).mono fun t ht => ht.advances
  rw [gather_eq]
  refine .bind (hp s) fun t ht => .ite (fun _ => .pure fun hne => absurd rfl hne) fun hok => ?_
  have hlt : s.cursor < t.cursor := ht.lt (by simpa using hok)
  refine .ite (fun heq => absurd heq (Nat.ne_of_gt hlt)) fun _ => ?_
  refine .limit fun fuel => ?_
  refine (State.Advances.frame.ensures_collect hadvances fuel [t.result] t).mono fun harvest h _ => ?_
  exact ⟨State.Advances.frame.trans ht.advances h, Nat.lt_of_lt_of_le hlt h.le⟩

theorem repeated1_reads (hp : Keeps State.Reads p) : Keeps State.Reads (repeated1 p) := by
  intro s
  refine .ite (fun hs => .pure (.of_failed (State.Advances.frame.refl s) hs)) fun _ => ?_
  refine .bind (gather_reads hp s) fun harvest h => .ite (fun _ => ?_) fun hne => ?_
  · exact .pure (.of_failed (.fail s _ _) rfl)
  · obtain ⟨hadvances, hlt⟩ := h (by simpa using hne)
    exact .pure ⟨State.Advances.frame.trans hadvances (State.Advances.frame.withResult _ _),
      fun _ => hlt⟩

/-- What a loop over values that read gathers: nothing, or it has read. -/
theorem gatherSeparated_reads (hp : Keeps State.Advances p) (hq : Keeps State.Reads q)
    (s : State) :
    (gatherSeparated p q [] s).Ensures fun harvest =>
      harvest.results ≠ [] → s.Advances harvest.state ∧ s.cursor < harvest.state.cursor := by
  have hadvances : Keeps State.Advances q := fun s => (hq s).mono fun t ht => ht.advances
  rw [gatherSeparated_eq]
  refine .bind (hq s) fun t ht => .ite (fun _ => .pure fun hne => absurd rfl hne) fun hok => ?_
  have hlt : s.cursor < t.cursor := ht.lt (by simpa using hok)
  refine .bind (hp t) fun u hu => .ite (fun _ => .pure fun _ => ⟨ht.advances, hlt⟩) fun _ => ?_
  refine .limit fun fuel => ?_
  have hrest := State.Advances.frame.ensures_collectSeparated hp hadvances fuel [t.result] u
  refine hrest.mono fun harvest h _ => ⟨?_, ?_⟩
  · exact State.Advances.frame.trans ht.advances (State.Advances.frame.trans hu h)
  · exact Nat.lt_of_lt_of_le hlt (Nat.le_trans hu.le h.le)

theorem separated1_reads (hp : Keeps State.Advances p) (hq : Keeps State.Reads q) :
    Keeps State.Reads (separated1 p q) := by
  intro s
  refine .ite (fun hs => .pure (.of_failed (State.Advances.frame.refl s) hs)) fun _ => ?_
  refine .bind (gatherSeparated_reads hp hq s) fun harvest h => .ite (fun _ => ?_) fun hne => ?_
  · exact .pure (.of_failed (.fail s _ _) rfl)
  · obtain ⟨hadvances, hlt⟩ := h (by simpa using hne)
    exact .pure ⟨State.Advances.frame.trans hadvances (State.Advances.frame.withResult _ _),
      fun _ => hlt⟩

end Parser

namespace Grammar

open Descent.Parser (Keeps)

variable {rules : Rules}

theorem StepFree.part_advances (hrules : rules.StepFree) {g p : Grammar} (hg : g.StepFree)
    (hp : Part p g) : Keeps State.Advances (p.meaning rules) :=
  meaning_advances hrules (hg.part hp)

/-- **A grammar that consumes, by its shape, has read something whenever it succeeds.** -/
theorem consumes_sound (hrules : rules.StepFree) {g : Grammar} (h : Consumes rules g)
    (hg : g.StepFree) : Keeps State.Reads (g.meaning rules) := by
  induction h with
  | literal htext =>
    rw [meaning_literal]
    exact Parser.literal_reads htext
  | regex name pattern =>
    rw [meaning_regex]
    exact Parser.regex_reads name pattern
  | fail message =>
    rw [meaning_fail]
    exact Parser.fail_reads message
  | sequence hp _ ih =>
    rw [meaning_sequence]
    refine Parser.sequence_reads (fun q hq => ?_) (List.mem_map_of_mem hp)
      (ih (hg.part (.sequence hp)))
    obtain ⟨r, hr, rfl⟩ := List.mem_map.mp hq
    exact hg.part_advances hrules (.sequence hr)
  | choice _ ih =>
    rw [meaning_choice]
    refine Parser.choice_reads fun q hq => ?_
    obtain ⟨r, hr, rfl⟩ := List.mem_map.mp hq
    exact ih r hr (hg.part (.choice hr))
  | many1 _ ih =>
    rw [meaning_many1]
    exact Parser.repeated1_reads (ih (hg.part (.many1 _)))
  | sepBy1 _ ih =>
    rw [meaning_sepBy1]
    exact Parser.separated1_reads (hg.part_advances hrules (.sepBy1Separator _ _))
      (ih (hg.part (.sepBy1Value _ _)))
  | traced _ ih =>
    rw [meaning_traced]
    exact Parser.traced_reads _ (ih (hg.part (.traced _ _)))
  | map _ ih =>
    rw [meaning_map]
    exact Parser.map_reads _ (ih (hg.part (.map _ _)))
  | @chainBody body prepare next _ ih =>
    rw [meaning_chain]
    refine Parser.chain_reads_left (ih (hg.part (.chainBody _ _ _))) fun v => ?_
    refine .bind (.trivial _) fun w _ => .pure ?_
    exact hg.part_advances hrules (.chainNext body prepare next w)
  | @chainNext body prepare next _ ih =>
    rw [meaning_chain]
    refine Parser.chain_reads_right (hg.part_advances hrules (.chainBody _ _ _)) fun v => ?_
    refine .bind (.trivial _) fun w _ => .pure ?_
    exact ih w (hg.part (.chainNext body prepare next w))
  | errorMap _ ih =>
    rw [meaning_errorMap]
    exact Parser.errorMap_reads _ (ih (hg.part (.errorMap _ _)))
  | named _ ih =>
    rw [meaning_named]
    exact ih (hg.part (.named _ _))
  | lazy _ ih =>
    rw [meaning_lazy]
    intro s
    exact .bind (.trivial _) fun _ _ => ih (hg.part (.lazy _ _)) s
  | rule hbody _ ih =>
    rw [meaning_rule_of_some hbody]
    exact ih (hrules _ _ hbody)

/-! ### Termination -/

section Termination

variable {bound : Nat}

/-- The grammar has an answer wherever at most `bound` characters are left. -/
def HaltsBelow (rules : Rules) (bound : Nat) (g : Grammar) : Prop :=
  ∀ s : State, s.remaining ≤ bound → (g.meaning rules s).Halts

/-- A sequence halts if each part does that may be applied with nothing read, and
    every part does once something has been read. -/
theorem halts_sequenceFrom (hrules : rules.StepFree) {parts : List Grammar}
    (hparts : ∀ p ∈ parts, p.StepFree)
    (hless : ∀ p ∈ parts, ∀ s : State, s.remaining < bound → (p.meaning rules s).Halts)
    (results : List Value) (s : State) (hs : s.remaining ≤ bound)
    (hleft : s.remaining = bound → ∀ before p after, parts = before ++ p :: after →
      (∀ q ∈ before, ¬Consumes rules q) → HaltsBelow rules bound p) :
    (Parser.sequenceFrom (parts.map (meaning rules)) results s).Halts := by
  induction parts generalizing results s with
  | nil => exact .pure _
  | cons p parts ih =>
    have hfree : p.StepFree := hparts p List.mem_cons_self
    have hfirst : (p.meaning rules s).Halts := by
      rcases Nat.lt_or_eq_of_le hs with hlt | heq
      · exact hless p List.mem_cons_self s hlt
      · exact hleft heq [] p parts rfl (fun q hq => absurd hq List.not_mem_nil) s hs
    have hstep : (p.meaning rules s).Ensures fun t =>
        s.Advances t ∧ (Consumes rules p → s.Reads t) := fun j t k h =>
      ⟨meaning_advances hrules hfree s j t k h,
        fun hp => consumes_sound hrules hp hfree s j t k h⟩
    refine .bind hfirst hstep fun t ht => .ite (fun _ => .pure t) fun hok => ?_
    have hle := ht.1.remaining_le
    refine ih (fun q hq => hparts q (List.mem_cons_of_mem p hq))
      (fun q hq => hless q (List.mem_cons_of_mem p hq)) (t.result :: results) t (by omega) ?_
    -- As much is left as at the start, so the first part has not read anything and
    -- what is leftmost in the rest is leftmost in the whole.
    intro heq before q after hsplit hbefore
    refine hleft (by omega) (p :: before) q after (by rw [hsplit]; rfl) fun r hr => ?_
    rcases List.mem_cons.mp hr with rfl | hr
    · intro hconsumes
      have hreads := ht.2 hconsumes
      have hlt := hreads.advances.remaining_lt (hreads.lt (by simpa using hok))
      omega
    · exact hbefore r hr

/-- What the tree contributes: a grammar halts with `bound` characters left if every
    grammar does with fewer, and its leftmost references do with as many. -/
theorem haltsBelow_of_leftmost (hrules : rules.StepFree)
    (hless : ∀ g : Grammar, g.StepFree → ∀ s : State, s.remaining < bound →
      (g.meaning rules s).Halts)
    (g : Grammar) (hg : g.StepFree)
    (hleft : ∀ target, Leftmost rules g target → HaltsBelow rules bound (.rule target)) :
    HaltsBelow rules bound g := by
  induction g using induction_on_parts with
  | step g ih =>
  have hpart : ∀ p, Part p g → (∀ target, Leftmost rules p target → Leftmost rules g target) →
      HaltsBelow rules bound p := fun p hp himp =>
    ih p hp (hg.part hp) fun target htarget => hleft target (himp target htarget)
  have hadvances : ∀ p, Part p g → Keeps State.Advances (p.meaning rules) :=
    fun p hp => hg.part_advances hrules hp
  -- A second part halts behind a first one: either the first has read something, or
  -- nothing need have been read before the second.
  have hbehind : ∀ p q, Part p g → Part q g → (¬Consumes rules p → HaltsBelow rules bound q) →
      ∀ s : State, s.remaining ≤ bound → (p.meaning rules s).Ensures fun t =>
        t.isError = false → (q.meaning rules t).Halts := by
    intro p q hp hq himp s hs j t k h hok
    have hle := (hadvances p hp s j t k h).remaining_le
    by_cases hconsumes : Consumes rules p
    · have hreads := consumes_sound hrules hconsumes (hg.part hp) s j t k h
      have hlt := hreads.advances.remaining_lt (hreads.lt hok)
      exact hless q (hg.part hq) t (by omega)
    · exact himp hconsumes t (by omega)
  intro s hs
  cases g with
  | custom name step => exact absurd True.intro hg.here
  | literal text =>
    rw [meaning_literal]
    exact .ite (fun _ => .pure _) fun _ => .ite (fun _ => .pure _) fun _ =>
      .ite (fun _ => .pure _) fun _ => .pure _
  | regex name pattern =>
    rw [meaning_regex]
    refine .ite (fun _ => .pure _) fun _ => .ite (fun _ => .pure _) fun _ => ?_
    cases pattern.matchAt s.input s.cursor with
    | none => exact .pure _
    | some stop => exact .ite (fun _ => .pure _) fun _ => .pure _
  | succeed value =>
    rw [meaning_succeed]
    exact .ite (fun _ => .pure _) fun _ => .pure _
  | fail message =>
    rw [meaning_fail]
    exact .ite (fun _ => .pure _) fun _ => .pure _
  | endOfInput =>
    rw [meaning_endOfInput]
    exact .ite (fun _ => .pure _) fun _ => .ite (fun _ => .pure _) fun _ => .pure _
  | trace label =>
    rw [meaning_trace]
    exact Parser.halts_trace label s
  | sequence parts =>
    rw [meaning_sequence]
    refine .ite (fun _ => .pure s) fun _ => ?_
    refine halts_sequenceFrom hrules (fun p hp => hg.part (.sequence hp))
      (fun p hp => hless p (hg.part (.sequence hp))) [] s hs ?_
    intro _ before p after hsplit hbefore
    subst hsplit
    exact hpart p (.sequence (by simp)) fun target htarget => .sequence hbefore htarget
  | choice alternatives =>
    rw [meaning_choice]
    refine .ite (fun _ => .pure s) fun _ => Parser.halts_choiceFrom fun p hp => ?_
    obtain ⟨q, hq, rfl⟩ := List.mem_map.mp hp
    exact hpart q (.choice hq) (fun target htarget => .choice hq htarget) s hs
  | many item =>
    rw [meaning_many]
    exact Parser.halts_repeated (hadvances item (.many item))
      (hpart item (.many item) fun target htarget => .many htarget) s hs
  | many1 item =>
    rw [meaning_many1]
    exact Parser.halts_repeated1 (hadvances item (.many1 item))
      (hpart item (.many1 item) fun target htarget => .many1 htarget) s hs
  | sepBy separator value =>
    have hsep : Part separator (.sepBy separator value) := .sepBySeparator separator value
    have hvalue : Part value (.sepBy separator value) := .sepByValue separator value
    rw [meaning_sepBy]
    refine Parser.halts_separated (hadvances separator hsep) (hadvances value hvalue) ?_ ?_ s hs
    · exact hpart value hvalue fun target htarget => .sepByValue htarget
    · exact hbehind value separator hvalue hsep fun hfree =>
        hpart separator hsep fun target htarget => .sepBySeparator hfree htarget
  | sepBy1 separator value =>
    have hsep : Part separator (.sepBy1 separator value) := .sepBy1Separator separator value
    have hvalue : Part value (.sepBy1 separator value) := .sepBy1Value separator value
    rw [meaning_sepBy1]
    refine Parser.halts_separated1 (hadvances separator hsep) (hadvances value hvalue) ?_ ?_ s hs
    · exact hpart value hvalue fun target htarget => .sepBy1Value htarget
    · exact hbehind value separator hvalue hsep fun hfree =>
        hpart separator hsep fun target htarget => .sepBy1Separator hfree htarget
  | traced label body =>
    rw [meaning_traced]
    exact Parser.halts_traced label
      (hpart body (.traced label body) (fun target htarget => .traced htarget) s hs)
  | map body f =>
    have hbody := hpart body (.map body f) (fun target htarget => .map htarget) s hs
    rw [meaning_map]
    refine .bind_any hbody fun t => .ite (fun _ => .pure t) fun _ => ?_
    exact .bind_any (Run.halts_response _) fun v => .pure _
  | chain body prepare next =>
    have hb : Part body (.chain body prepare next) := .chainBody body prepare next
    have hbody := hpart body hb (fun target htarget => .chainBody htarget) s hs
    have hnext : ∀ w, (body.meaning rules s).Ensures fun t =>
        t.isError = false → ((next w).meaning rules t).Halts := fun w =>
      hbehind body (next w) hb (.chainNext body prepare next w) (fun hfree =>
        hpart (next w) (.chainNext body prepare next w) fun target htarget =>
          .chainNext hfree w htarget) s hs
    rw [meaning_chain]
    refine .bind hbody (fun j t k h w => hnext w j t k h) fun t ht => .ite (fun _ => .pure t) ?_
    intro hok
    rw [bind_assoc]
    exact .bind_any (Run.halts_response _) fun w => ht w (by simpa using hok)
  | errorMap body handler =>
    have hbody := hpart body (.errorMap body handler) (fun target htarget => .errorMap htarget) s hs
    rw [meaning_errorMap]
    refine .bind_any hbody fun t => ?_
    cases t.error with
    | none => exact .pure t
    | some e => exact .bind_any (Run.halts_response _) fun r => .pure _
  | named body name =>
    rw [meaning_named]
    exact hpart body (.named body name) (fun target htarget => .named htarget) s hs
  | lazy touch body =>
    have hbody := hpart body (.lazy touch body) (fun target htarget => .lazy htarget) s hs
    rw [meaning_lazy]
    exact .bind_any (Run.halts_response touch) fun _ => hbody
  | rule name => exact hleft name (.rule name) s hs

/-- The rules are ranked, and what is leftmost in a rule has a smaller rank. -/
def Ranked (rules : Rules) (rank : String → Nat) : Prop :=
  ∀ name body, rules.lookup name = some body →
    ∀ target, Leftmost rules body target → rank target < rank name

/-- What the rank contributes: rules halt with `bound` characters left if every
    grammar does with fewer. -/
theorem haltsBelow_rule (hrules : rules.StepFree) {rank : String → Nat}
    (hrank : Ranked rules rank)
    (hless : ∀ g : Grammar, g.StepFree → ∀ s : State, s.remaining < bound →
      (g.meaning rules s).Halts)
    (name : String) : HaltsBelow rules bound (.rule name) := by
  induction hr : rank name using Nat.strongRecOn generalizing name with
  | ind r ih =>
    intro s hs
    cases hname : rules.lookup name with
    | none =>
      rw [meaning_rule_of_none hname]
      exact .raise _
    | some body =>
      rw [meaning_rule_of_some hname]
      refine haltsBelow_of_leftmost hrules hless body (hrules name body hname) ?_ s hs
      intro target htarget
      have hsmaller := hrank name body hname target htarget
      exact ih (rank target) (hr ▸ hsmaller) target rfl

/-- What is left to read contributes the rest. -/
theorem meaning_halts (hrules : rules.StepFree) {rank : String → Nat}
    (hrank : Ranked rules rank) {g : Grammar} (hg : g.StepFree) (s : State) :
    (g.meaning rules s).Halts := by
  induction hleft : s.remaining using Nat.strongRecOn generalizing g s with
  | ind bound ih =>
    have hless : ∀ g : Grammar, g.StepFree → ∀ s : State, s.remaining < bound →
        (g.meaning rules s).Halts := fun g hg s hs => ih s.remaining hs hg s rfl
    exact haltsBelow_of_leftmost hrules hless g hg
      (fun target _ => haltsBelow_rule hrules hrank hless target) s (Nat.le_of_eq hleft)

end Termination

/-- **Without left recursion every application terminates.**  If the rules can be
    ranked so that leftmost references go down, then from every state and every
    journal there is one answer, and all fuel from some amount on finds it. -/
theorem parser_terminates_of_ranked (hrules : rules.StepFree) (rank : String → Nat)
    (hrank : Ranked rules rank) {g : Grammar} (hg : g.StepFree) (s : State) (j : Journal) :
    ∃ answer, answer ≠ .exhausted ∧
      ∃ n, ∀ fuel, n ≤ fuel → g.parser rules fuel s j = answer := by
  have hhalts : (g.meaning rules s).Halts := meaning_halts hrules hrank hg s
  obtain ⟨n, hn⟩ := parser_settles rules g s j
  exact ⟨g.meaning rules s j, hhalts j, n, hn⟩

/-! ### A table with a ranking -/

/-- An item is a run of letters or a group; a group is any number of items between
    parentheses. -/
def groups : Rules :=
  [("item", .choice [letters, ref "group"]),
    ("group", .sequence [.literal "(", .many (ref "item"), .literal ")"])]

/-- An item may start with a group, and a group starts with a parenthesis. -/
def groupsRank (name : String) : Nat := if name = "item" then 1 else 0

theorem ref_stepFree (name : String) : (ref name).StepFree := by
  refine .intro (fun h => h) fun p hp => ?_
  cases hp
  exact .intro (fun h => h) fun p hp => nomatch hp

theorem groups_stepFree : groups.StepFree := by
  have hletters : letters.StepFree := .intro (fun h => h) fun p hp => nomatch hp
  have hliteral : ∀ text, (literal text).StepFree := fun text =>
    .intro (fun h => h) fun p hp => nomatch hp
  have hmany : (many (ref "item")).StepFree := by
    refine .intro (fun h => h) fun p hp => ?_
    cases hp
    exact ref_stepFree "item"
  intro name body h
  simp only [groups, List.lookup_cons, List.lookup_nil] at h
  split at h
  · cases h
    refine .intro (fun h => h) fun p hp => ?_
    cases hp with
    | choice hp =>
      simp only [List.mem_cons, List.not_mem_nil, or_false] at hp
      rcases hp with rfl | rfl
      · exact hletters
      · exact ref_stepFree "group"
  · split at h
    · cases h
      refine .intro (fun h => h) fun p hp => ?_
      cases hp with
      | sequence hp =>
        simp only [List.mem_cons, List.not_mem_nil, or_false] at hp
        rcases hp with rfl | rfl | rfl
        · exact hliteral "("
        · exact hmany
        · exact hliteral ")"
    · cases h

theorem groups_ranked : Ranked groups groupsRank := by
  intro name body h target htarget
  simp only [groups, List.lookup_cons, List.lookup_nil] at h
  split at h
  · rename_i hname
    cases h
    have hitem : name = "item" := by simpa using hname
    subst hitem
    cases htarget with
    | choice hp hleft =>
      simp only [List.mem_cons, List.not_mem_nil, or_false] at hp
      rcases hp with rfl | rfl
      · cases hleft
      · cases hleft with
        | lazy hleft =>
          cases hleft
          decide
  · split at h
    · cases h
      -- The first part is a parenthesis, so nothing in the sequence is leftmost.
      generalize hparts : [literal "(", many (ref "item"), literal ")"] = parts at htarget
      cases htarget with
      | @sequence before after p _ hbefore hleft =>
        cases before with
        | nil =>
          obtain ⟨rfl, -⟩ := List.cons.inj hparts
          cases hleft
        | cons q before =>
          obtain ⟨rfl, -⟩ := List.cons.inj hparts
          exact absurd (.literal (by decide)) (hbefore _ List.mem_cons_self)
    · cases h

theorem groups_item_terminates :
    groups.StepFree ∧ Ranked groups groupsRank ∧ (ref "item").StepFree ∧
      ∃ answer, answer ≠ .exhausted ∧
        ∃ n, ∀ fuel, n ≤ fuel →
          (ref "item").parser groups fuel (State.initial (Text.ofString "((a)b)")) {} = answer :=
  ⟨groups_stepFree, groups_ranked, ref_stepFree "item",
    parser_terminates_of_ranked groups_stepFree groupsRank groups_ranked (ref_stepFree "item") _ _⟩

end Grammar

end Descent
