/-
  Descent/Proofs/Transcript.lean
  ==============================
  **Nothing that is consumed is lost, duplicated or invented.**

  Leaves that read yield what they have read.  As long as a grammar only puts their
  results together, in lists and lists of lists, the strings of a result are the text
  that was consumed, piece by piece and in order (`Grammar.result_spells_consumed`).
  What failed attempts have read is in no result: they leave no result behind and the
  cursor where it was.

  A separator, the delimiters of a `between`, a function on results or a continuation
  would drop or change pieces, so they are left out.
-/
import Descent.Grammar.Probe
import Descent.Proofs.Ensures
import Descent.Proofs.Matching

namespace Descent

/-! ### The text that a value spells -/

namespace Value

mutual

/-- The characters of the strings in a value, from left to right, if the value is made
    of strings and lists and nothing else. -/
def spelling? : Value → Option (List Char)
  | .str s => some s.toList
  | .list items => spellingAll? items
  | _ => none

def spellingAll? : List Value → Option (List Char)
  | [] => some []
  | v :: vs => do
    let cs ← spelling? v
    let rest ← spellingAll? vs
    pure (cs ++ rest)

end

@[simp] theorem spelling?_str (s : String) : (str s).spelling? = some s.toList := by
  rw [spelling?]

@[simp] theorem spelling?_list (items : List Value) :
    (list items).spelling? = spellingAll? items := by
  rw [spelling?]

theorem spellingAll?_snoc {items : List Value} {v : Value} {cs rest : List Char}
    (hitems : spellingAll? items = some cs) (hv : v.spelling? = some rest) :
    spellingAll? (items ++ [v]) = some (cs ++ rest) := by
  induction items generalizing cs with
  | nil =>
    cases hitems
    simp [spellingAll?, hv]
  | cons w items ih =>
    simp only [spellingAll?, Option.bind_eq_bind, Option.bind_eq_some_iff] at hitems
    obtain ⟨first, hfirst, others, hothers, heq⟩ := hitems
    cases heq
    simp [spellingAll?, hfirst, ih hothers]

end Value

namespace Text

variable {t : Text} {i j k : Nat}

@[simp] theorem slice_self (t : Text) (i : Nat) : (t.slice i i).toList = [] := by
  simp [toList_slice]

/-- Two slices that meet are one. -/
theorem slice_append (hij : i ≤ j) (hjk : j ≤ k) :
    (t.slice i j).toList ++ (t.slice j k).toList = (t.slice i k).toList := by
  have hdrop : t.toList.drop j = (t.toList.drop i).drop (j - i) := by
    rw [List.drop_drop, Nat.add_sub_cancel' hij]
  have hlength : k - i = (j - i) + (k - j) := by omega
  rw [toList_slice, toList_slice, toList_slice, hdrop, hlength, List.take_add]

/-- A text that stands at a place is the slice there. -/
theorem slice_of_hasAt {s : String} (h : t.hasAt s.toList i = true) :
    (t.slice i (i + s.length)).toList = s.toList := by
  rw [toList_slice, Nat.add_sub_cancel_left, ← String.length_toList]
  exact (List.prefix_iff_eq_take.mp ((hasAt_iff_isPrefixOf t s.toList i).mp h)).symm

/-- A character that stands at a place is the slice there. -/
theorem slice_of_get? {c : Char} (h : t.get? i = some c) : (t.slice i (i + 1)).toList = [c] := by
  rw [toList_slice, Nat.add_sub_cancel_left, drop_of_get? h]
  rfl

end Text

/-! ### What a step has copied -/

/-- From `s` to `t` the cursor has passed over the text that the value spells. -/
structure State.Copied (s : State) (v : Value) (t : State) : Prop where
  input : t.input = s.input
  le : s.cursor ≤ t.cursor
  spelling : v.spelling? = some (s.input.slice s.cursor t.cursor).toList

namespace State.Copied

variable {s t u : State} {v : Value} {items : List Value}

theorem nil (s : State) : s.Copied (.list []) s := by
  constructor
  · rfl
  · exact Nat.le_refl _
  · simp [Value.spellingAll?]

/-- The results so far, and one more. -/
theorem snoc (hst : s.Copied (.list items) t) (htu : t.Copied v u) :
    s.Copied (.list (items ++ [v])) u := by
  constructor
  · rw [htu.input, hst.input]
  · exact Nat.le_trans hst.le htu.le
  · have hitems := hst.spelling
    have hv := htu.spelling
    rw [Value.spelling?_list] at hitems ⊢
    rw [hst.input] at hv
    rw [Value.spellingAll?_snoc hitems hv, Text.slice_append hst.le htu.le]

/-- As `snoc`, for results that are kept with the latest first. -/
theorem cons_reverse (hst : s.Copied (.list items.reverse) t) (htu : t.Copied v u) :
    s.Copied (.list (v :: items).reverse) u := by
  rw [List.reverse_cons]
  exact hst.snoc htu

theorem withResult (h : s.Copied v t) : s.Copied v (t.withResult v) :=
  ⟨h.input, h.le, h.spelling⟩

theorem advance {n : Nat} {x : String}
    (h : (s.input.slice s.cursor (s.cursor + n)).toList = x.toList) :
    s.Copied (.str x) (s.advance (s.cursor + n) (.str x)) := by
  constructor
  · rfl
  · exact Nat.le_add_right _ _
  · rw [Value.spelling?_str, ← h]
    rfl

end State.Copied

namespace Parser

open Run (Ensures)

/-- A success on a state that has not failed yields what it has passed over. -/
def Transcribes (p : Parser) : Prop :=
  ∀ s, s.isError = false → (p s).Ensures fun t => t.isError = false → s.Copied t.result t

variable {p : Parser} {ps : List Parser} {s t : State} {results : List Value}

theorem transcribes_literal (text : String) : Transcribes (literal text) := by
  intro s hs
  rw [literal, hs, if_neg Bool.false_ne_true]
  refine .ite (fun _ => .pure nofun) fun _ => .ite (fun hhas => ?_) fun _ => .pure nofun
  exact .pure fun _ => .advance (Text.slice_of_hasAt hhas)

theorem transcribes_regex (name : String) (pattern : Pattern) :
    Transcribes (regex name pattern) := by
  intro s hs
  have hfails : ∀ kind message, (pure (s.fail kind message) : Run State).Ensures fun t =>
      t.isError = false → s.Copied t.result t := by
    intro kind message
    exact .pure fun hok => by cases hok
  rw [regex, hs, if_neg Bool.false_ne_true]
  refine .ite (fun _ => hfails _ _) fun hend => ?_
  cases hmatch : pattern.matchAt s.input s.cursor with
  | none => exact hfails _ _
  | some stop =>
    have hwithin : s.cursor ≤ s.input.size := by
      simp only [State.atEnd, decide_eq_true_eq] at hend
      omega
    obtain ⟨n, rfl⟩ := Nat.exists_eq_add_of_le (Pattern.matchAt_bounds hwithin hmatch).1
    exact .ite (fun _ => hfails _ _) fun _ => .pure fun _ => .advance rfl

theorem transcribes_anyChar :
    Transcribes fun s => (pure (Probe.anyChar.step s) : Response State).run := by
  intro s hs
  change (pure (Probe.anyChar.step s) : Run State).Ensures _
  rw [Probe.step, hs, if_neg Bool.false_ne_true, Probe.anyCharStep]
  cases hget : s.input.get? s.cursor with
  | none => exact .pure nofun
  | some c =>
    refine .pure fun _ => .advance ?_
    rw [Text.slice_of_get? hget, String.toList_singleton]

theorem transcribes_traced (label : String) (hp : p.Transcribes) :
    Transcribes (traced label p) := by
  intro s hs
  rw [traced, hs, if_neg Bool.false_ne_true]
  refine .bind (.trivial _) fun _ _ => .bind (hp s hs) fun t ht => ?_
  refine .ite (fun _ => ?_) fun _ => .pure ht
  exact .bind (.trivial _) fun _ _ => .pure ht

/-- A handler of errors has no part in a success: it makes a failure of whatever it
    touches. -/
theorem transcribes_errorMap (handler : ParseError → Nat → Run Revision) (hp : p.Transcribes) :
    Transcribes (p.errorMap handler) := by
  intro s hs
  refine .bind (hp s hs) fun t ht => ?_
  cases t.error with
  | none => exact .pure ht
  | some e => exact .bind (.trivial _) fun r _ => .pure nofun

theorem transcribes_lazy {thunk : Run Parser} (h : thunk.Ensures Transcribes) :
    Transcribes (Parser.lazy thunk) := by
  intro s hs
  exact .bind h fun p hp => hp s hs

/-! ### Lists of parsers -/

/-- The invariant of a sequence: the results so far spell what lies between its start
    `s` and the state `t` that it has reached. -/
theorem ensures_sequenceFrom_copied (hps : ∀ p ∈ ps, p.Transcribes)
    (ht : t.isError = false) (hresults : s.Copied (.list results.reverse) t) :
    (sequenceFrom ps results t).Ensures fun u => u.isError = false → s.Copied u.result u := by
  induction ps generalizing results t with
  | nil =>
    rw [sequenceFrom]
    exact .pure fun _ => hresults.withResult
  | cons p ps ih =>
    rw [sequenceFrom]
    refine .bind (hps p List.mem_cons_self t ht) fun u hu => ?_
    refine .ite (fun hfailed => .pure fun hok => ?_) fun hgoes => ?_
    · rw [hfailed] at hok
      cases hok
    · have hok : u.isError = false := by simpa using hgoes
      have hrest : ∀ q ∈ ps, q.Transcribes := fun q hq => hps q (List.mem_cons_of_mem p hq)
      exact ih hrest hok (hresults.cons_reverse (hu hok))

theorem transcribes_sequence (hps : ∀ p ∈ ps, p.Transcribes) : Transcribes (sequence ps) := by
  intro s hs
  rw [sequence, hs, if_neg Bool.false_ne_true]
  exact ensures_sequenceFrom_copied hps hs (.nil s)

/-- Every alternative starts where the choice does, so the failed ones do not count. -/
theorem transcribes_choice (hps : ∀ p ∈ ps, p.Transcribes) : Transcribes (choice ps) := by
  intro s hs
  rw [choice, hs, if_neg Bool.false_ne_true]
  induction ps with
  | nil => exact .pure nofun
  | cons p ps ih =>
    rw [choiceFrom]
    refine .bind (hps p List.mem_cons_self s hs) fun t ht => ?_
    refine .ite (fun _ => ?_) fun _ => .pure ht
    exact ih fun q hq => hps q (List.mem_cons_of_mem p hq)

/-! ### Loops -/

/-- The invariant of a loop, as that of a sequence.  The attempt that fails is dropped
    with its state; the one that succeeds on the spot is kept, and spells nothing. -/
theorem ensures_collect_copied (hp : p.Transcribes) (fuel : Nat) (ht : t.isError = false)
    (hresults : s.Copied (.list results.reverse) t) :
    (collect p fuel results t).Ensures fun harvest =>
      s.Copied (.list harvest.results) harvest.state := by
  induction fuel generalizing results t with
  | zero => exact .exhausted
  | succ fuel ih =>
    rw [collect]
    refine .bind (hp t ht) fun u hu => ?_
    refine .ite (fun _ => .pure hresults) fun hgoes => ?_
    have hok : u.isError = false := by simpa using hgoes
    have hmore := hresults.cons_reverse (hu hok)
    exact .ite (fun _ => .pure hmore) fun _ => ih hok hmore

theorem transcribes_many (hp : p.Transcribes) (fuel : Nat) : Transcribes (many fuel p) := by
  intro s hs
  rw [many, hs, if_neg Bool.false_ne_true]
  refine .bind (ensures_collect_copied hp fuel hs (.nil s)) fun harvest h => ?_
  exact .pure fun _ => h.withResult

theorem transcribes_many1 (hp : p.Transcribes) (fuel : Nat) : Transcribes (many1 fuel p) := by
  intro s hs
  rw [many1, hs, if_neg Bool.false_ne_true]
  refine .bind (ensures_collect_copied hp fuel hs (.nil s)) fun harvest h => ?_
  exact .ite (fun _ => .pure nofun) fun _ => .pure fun _ => h.withResult

end Parser

namespace Grammar

variable {rules : Rules} {g : Grammar}

/-- The node reads, or puts together what its parts have read.  The one step of a user
    that it may be is the one that reads a character. -/
def Verbatim : Grammar → Prop
  | .custom _ step => step = fun s => pure (Probe.anyChar.step s)
  | .literal _ | .regex _ _ | .sequence _ | .choice _ | .many _ | .many1 _ => True
  | .traced _ _ | .errorMap _ _ | .named _ _ | .lazy _ _ | .rule _ => True
  | .succeed _ | .fail _ | .endOfInput | .trace _ | .map _ _ | .chain _ _ _ => False
  | .sepBy _ _ | .sepBy1 _ _ => False

theorem parser_transcribes (hrules : rules.Everywhere Verbatim) (fuel : Nat)
    (hg : Everywhere Verbatim g) : Parser.Transcribes (g.parser rules fuel) := by
  induction fuel generalizing g with
  | zero => exact fun s _ => .exhausted
  | succ fuel ih =>
    have hhere := hg.here
    have hpart : ∀ p, Part p g → Parser.Transcribes (p.parser rules fuel) :=
      fun p hp => ih (hg.part hp)
    have hparts : ∀ gs : List Grammar, (∀ p ∈ gs, Part p g) →
        ∀ p ∈ gs.map (parser rules fuel), p.Transcribes := by
      intro gs hgs p hp
      obtain ⟨q, hq, rfl⟩ := List.mem_map.mp hp
      exact hpart q (hgs q hq)
    cases g with
    | custom name step =>
      rw [Verbatim] at hhere
      subst hhere
      exact Parser.transcribes_anyChar
    | literal text => exact Parser.transcribes_literal text
    | regex name pattern => exact Parser.transcribes_regex name pattern
    | sequence parts => exact Parser.transcribes_sequence (hparts parts fun _ => .sequence)
    | choice alternatives =>
      exact Parser.transcribes_choice (hparts alternatives fun _ => .choice)
    | many item => exact Parser.transcribes_many (hpart item (.many item)) fuel
    | many1 item => exact Parser.transcribes_many1 (hpart item (.many1 item)) fuel
    | traced label body => exact Parser.transcribes_traced label (hpart body (.traced label body))
    | errorMap body handler =>
      simp only [parser]
      exact Parser.transcribes_errorMap _ (hpart body (.errorMap body handler))
    | named body name => exact hpart body (.named body name)
    | lazy touch body =>
      simp only [parser]
      apply Parser.transcribes_lazy
      exact .bind (.trivial _) fun _ _ => .pure (hpart body (.lazy touch body))
    | rule name =>
      simp only [parser]
      cases hname : rules.lookup name with
      | none => exact fun s _ => .raise _
      | some body => exact ih (hrules name body hname)
    | _ => exact hhere.elim

/-- **Nothing that is consumed is lost, duplicated or invented.**  Where a grammar that
    only reads and puts together succeeds, its result is made of strings and lists of
    them, and the strings, from left to right, are the slice of the input between the
    cursor before and the cursor after. -/
theorem result_spells_consumed (hrules : rules.Everywhere Verbatim)
    (hg : Everywhere Verbatim g) {fuel : Nat} {s t : State} {j k : Journal}
    (hs : s.isError = false) (h : g.parser rules fuel s j = .returned t k)
    (hok : t.isError = false) :
    t.input = s.input ∧ s.cursor ≤ t.cursor ∧
      t.result.spelling? = some (s.input.slice s.cursor t.cursor).toList := by
  have hcopied := parser_transcribes hrules fuel hg s hs j t k h hok
  exact ⟨hcopied.input, hcopied.le, hcopied.spelling⟩

/-! ### A table of nested lists -/

/-- A list is in brackets, and has words, numbers and lists in it; a word may be an
    exclamation mark with any character behind it. -/
def lists : Rules :=
  [("list", .sequence [.literal "(", .many (.choice [ref "list", ref "word"]), .literal ")"]),
   ("word", label (.choice
      [letters, .many1 digits, .sequence [.literal "!", Probe.anyChar.grammar]]) "a word")]

theorem lists_verbatim : lists.Everywhere Verbatim := by
  apply Rules.everywhere_of_mem
  simp [lists, label, letters, digits, ref, Probe.grammar, Verbatim]

/-- The inner list is not closed: what was read of it is in no result, and the outer
    bracket is tried where it began. -/
theorem open_list_result_spells_consumed :
    lists.Everywhere Verbatim ∧ Everywhere Verbatim (many (.choice [ref "word", ref "list"])) ∧
      ∃ t k, (many (.choice [ref "word", ref "list"])).parser lists 14
          { input := Text.ofString "-a(!))(b", cursor := 1 } {} = .returned t k ∧
        t.isError = false ∧ t.cursor = 6 ∧
        t.input = Text.ofString "-a(!))(b" ∧ 1 ≤ t.cursor ∧
        t.result.spelling? = some ((Text.ofString "-a(!))(b").slice 1 t.cursor).toList := by
  have hg : Everywhere Verbatim (many (.choice [ref "word", ref "list"])) := by
    simp [ref, Verbatim]
  obtain ⟨t, k, h, hok, hcursor⟩ : ∃ t k,
      (many (.choice [ref "word", ref "list"])).parser lists 14
          { input := Text.ofString "-a(!))(b", cursor := 1 } {} = .returned t k ∧
        t.isError = false ∧ t.cursor = 6 := ⟨_, _, rfl, rfl, rfl⟩
  exact ⟨lists_verbatim, hg, t, k, h, hok, hcursor,
    result_spells_consumed lists_verbatim hg rfl h hok⟩

end Grammar

end Descent
