/-
  Descent/Proofs/ArrayFailures.lean
  =================================
  **Where and why the demo grammar of nested arrays fails.**

  What goes wrong inside an array is not reported: the loop over the items drops the
  attempt that failed, so the failure is that of the outermost closing bracket, or of the
  end of the text behind the array.  The place is where the loop stood still, however deep
  the fault is.

  That place is told from the text alone.  Soundness says that the loop stands behind
  content, so it has not gone too far; it has not stopped short either, because from
  content that is there it goes at least as far (`items_reach`, by induction on the length
  of the content).  So the loop takes the longest content there is (`items_longest`), and
  each text is an array or one of the five kinds of text in `Refuses`.
-/
import Descent.Proofs.NestedArray

namespace Descent.Demo.NestedArray

/-- Of all content that the text begins with, `cs` is the longest. -/
structure LongestContent (text cs : List Char) : Prop where
  content : ∃ vs, IsContent cs vs
  begins : cs <+: text
  max : ∀ ds ws, IsContent ds ws → ds <+: text → ds.length ≤ cs.length

/-- Why a text is no document, and the place where the document fails. -/
inductive Refuses : List Char → ErrorKind → Nat → Prop where
  /-- Something is left behind an array. -/
  | leftover {cs rest : List Char} {v : Value} (h : IsArray cs v) (hrest : rest ≠ []) :
      Refuses (cs ++ rest) .message cs.length
  | nothing : Refuses [] .endOfInput 0
  | unopened {text : List Char} (hne : text ≠ []) (h : ∀ rest, text ≠ '[' :: rest) :
      Refuses text .literalMismatch 0
  /-- The text ends where the closing bracket might stand. -/
  | unclosed {cs : List Char} {vs : List Value} (h : IsContent cs vs) :
      Refuses ('[' :: cs) .endOfInput (cs.length + 1)
  /-- Something else stands where the closing bracket might. -/
  | interrupted {cs rest : List Char} (h : LongestContent (cs ++ rest) cs) (hne : rest ≠ [])
      (hclose : ∀ rest', rest ≠ ']' :: rest') :
      Refuses ('[' :: (cs ++ rest)) .literalMismatch (cs.length + 1)

variable {s t : State} {cs rest text : List Char} {v : Value} {vs : List Value}
  {kind : ErrorKind} {n : Nat} {j : Journal}

/-! ### How far the loop goes -/

/-- Content is nothing, one value, or a value and more content behind a comma. -/
theorem IsContent.unroll (h : IsContent cs vs) :
    cs = [] ∨ (∃ v, IsValue cs v) ∨
      ∃ ds es v ws, cs = ds ++ ',' :: es ∧ IsValue ds v ∧ IsContent es ws := by
  cases h with
  | nothing => exact .inl rfl
  | items h =>
    cases h with
    | last hv => exact .inr (.inl ⟨_, hv⟩)
    | more hv htail => exact .inr (.inr ⟨_, _, _, _, rfl, hv, .items htail⟩)
  | itemsComma h =>
    cases h with
    | last hv => exact .inr (.inr ⟨_, _, _, _, rfl, hv, .nothing⟩)
    | more hv htail =>
      refine .inr (.inr ⟨_, _, _, _, ?_, hv, .itemsComma htail⟩)
      rw [List.append_assoc]
      rfl

/-- In front of a value there is a value to find, which may have more digits. -/
theorem value_reach (h : IsValue cs v) (hs : s.isError = false) (hahead : s.ahead = cs ++ rest) :
    ∃ ds w rest', cs.length ≤ ds.length ∧ s.ahead = ds ++ rest' ∧
      value.meaning rules s j = .returned (s.advance (s.cursor + ds.length) w) j := by
  cases h with
  | number hne hdigits =>
    have hrun : s.ahead.takeWhile Char.isDigit = cs ++ rest.takeWhile Char.isDigit := by
      rw [hahead, List.takeWhile_append_of_pos hdigits]
    have hrest : s.ahead = (cs ++ rest.takeWhile Char.isDigit) ++ rest.dropWhile Char.isDigit := by
      rw [List.append_assoc, List.takeWhile_append_dropWhile, hahead]
    refine ⟨_, _, _, ?_, hrest, value_number hs hrun (by simp [hne]) j⟩
    rw [List.length_append]
    omega
  | array h =>
    exact ⟨cs, v, rest, Nat.le_refl _, hahead, value_of_array h (array_complete h) hs hahead⟩

theorem items_found (hs : s.isError = false) (results : List Value) (j : Journal) :
    ∃ cs vs rest w, IsContent cs vs ∧ s.ahead = cs ++ rest ∧ itemsFrom results s j
      = .returned ⟨results.reverse ++ vs, s.advance (s.cursor + cs.length) w⟩ j :=
  items_sound (fun _ ht _ => value_sound ht) s hs (Nat.le_refl s.ahead.length) results

/-- Behind a value the loop does not fall back. -/
theorem items_behind_value (hs : s.isError = false) (hahead : s.ahead = cs ++ rest)
    (hvalue : value.meaning rules s j = .returned (s.advance (s.cursor + cs.length) v) j)
    (results : List Value) : ∃ harvest, itemsFrom results s j = .returned harvest j ∧
      s.cursor + cs.length ≤ harvest.state.cursor := by
  by_cases hcomma : ∃ rest', rest = ',' :: rest'
  · obtain ⟨rest, rfl⟩ := hcomma
    obtain ⟨u, hu, hnext⟩ := items_next hs hahead hvalue results
    obtain ⟨ds, ws, rest', w, -, -, hloop⟩ := items_found hu.ok (v :: results) j
    refine ⟨_, hnext.trans hloop, ?_⟩
    have hcursor := hu.cursor
    show _ ≤ u.cursor + ds.length
    omega
  · exact ⟨_, items_last hs hahead hcomma hvalue results, Nat.le_refl _⟩

/-- **The loop does not stop short of content.** -/
theorem items_reach (h : IsContent cs vs) (hs : s.isError = false) (hahead : s.ahead = cs ++ rest)
    (results : List Value) : ∃ harvest, itemsFrom results s j = .returned harvest j ∧
      s.cursor + cs.length ≤ harvest.state.cursor := by
  induction hlength : cs.length using Nat.strongRecOn generalizing cs vs s results with
  | ind length ih =>
  rcases h.unroll with rfl | ⟨v, hv⟩ | ⟨ds, es, v, ws, rfl, hv, hrest⟩
  · obtain ⟨ds, ws, rest', w, -, -, hloop⟩ := items_found hs results j
    refine ⟨_, hloop, ?_⟩
    rw [← hlength]
    exact Nat.le_add_right s.cursor ds.length
  · obtain ⟨ds, w, rest', hle, hds, hvalue⟩ := value_reach (j := j) hv hs hahead
    obtain ⟨harvest, hloop, hbehind⟩ := items_behind_value hs hds hvalue results
    exact ⟨harvest, hloop, by omega⟩
  · have hsplit : s.ahead = ds ++ ',' :: (es ++ rest) := by
      rw [hahead, List.append_assoc]
      rfl
    have hvalue := value_complete (j := j) hv s _ hs hsplit rfl
    obtain ⟨u, hu, hnext⟩ := items_next hs hsplit hvalue results
    rw [List.length_append, List.length_cons] at hlength
    obtain ⟨harvest, hloop, hle⟩ :=
      ih es.length (by omega) hrest hu.ok hu.ahead (v :: results) rfl
    refine ⟨harvest, hnext.trans hloop, ?_⟩
    have hcursor := hu.cursor
    omega

/-- **The loop takes the longest content there is.** -/
theorem items_longest (hs : s.isError = false) (results : List Value) (j : Journal) :
    ∃ cs vs rest w, IsContent cs vs ∧ s.ahead = cs ++ rest ∧ LongestContent s.ahead cs ∧
      itemsFrom results s j
        = .returned ⟨results.reverse ++ vs, s.advance (s.cursor + cs.length) w⟩ j := by
  obtain ⟨cs, vs, rest, w, hcontent, hahead, hloop⟩ := items_found hs results j
  refine ⟨cs, vs, rest, w, hcontent, hahead, ⟨⟨vs, hcontent⟩, ⟨rest, hahead.symm⟩, ?_⟩, hloop⟩
  rintro ds ws hds ⟨rest', hrest'⟩
  obtain ⟨harvest, hloop', hle⟩ := items_reach (j := j) hds hs hrest'.symm results
  rw [hloop] at hloop'
  cases hloop'
  exact Nat.le_of_add_le_add_left hle

theorem LongestContent.length_eq {ds : List Char} (h : LongestContent text cs)
    (h' : LongestContent text ds) : cs.length = ds.length := by
  obtain ⟨vs, hcs⟩ := h.content
  obtain ⟨ws, hds⟩ := h'.content
  exact Nat.le_antisymm (h'.max cs vs hcs h.begins) (h.max ds ws hds h'.begins)

theorem IsContent.longest (h : IsContent cs vs) : LongestContent cs cs where
  content := ⟨vs, h⟩
  begins := List.prefix_rfl
  max _ _ _ hds := hds.length_le

theorem exists_longestContent (text : List Char) :
    ∃ cs vs rest, IsContent cs vs ∧ text = cs ++ rest ∧ LongestContent text cs := by
  have hahead : (State.initial ⟨text.toArray⟩).ahead = text := State.ahead_initial _
  obtain ⟨cs, vs, rest, -, hcontent, hsplit, hlongest, -⟩ :=
    items_longest (s := State.initial ⟨text.toArray⟩) rfl [] {}
  rw [hahead] at hsplit hlongest
  exact ⟨cs, vs, rest, hcontent, hsplit, hlongest⟩

/-! ### Arrays without an end -/

/-- Behind the longest content the array fails, if there is no bracket to close it. -/
theorem array_interrupted (hs : s.isError = false) (hopen : s.ahead = '[' :: (cs ++ rest))
    (hlongest : LongestContent (cs ++ rest) cs) (hclose : ∀ rest', rest ≠ ']' :: rest')
    (j : Journal) : ∃ (t : State) (message : String), t.cursor = s.cursor + (cs.length + 1) ∧
      array.meaning rules s j
        = .returned (t.fail (ErrorKind.literalMismatch.orEnd rest) message) j := by
  have hbehind : (s.advance (s.cursor + 1) (.str "[")).ahead = cs ++ rest :=
    State.ahead_advance_one hopen _
  obtain ⟨ds, vs, rest', w, -, hsplit, hlongest', hloop⟩ :=
    items_longest (s := s.advance (s.cursor + 1) (.str "[")) hs [] j
  rw [hbehind] at hsplit hlongest'
  obtain ⟨rfl, rfl⟩ := List.append_inj hsplit (hlongest.length_eq hlongest')
  have hstop := State.ahead_advance hbehind w
  obtain ⟨message, hfailed⟩ :=
    (array_open hs hopen (by exact hs) hloop).2 fun rest' h => hclose rest' (hstop.symm.trans h)
  rw [hstop] at hfailed
  refine ⟨_, message, ?_, hfailed⟩
  show s.cursor + 1 + cs.length = s.cursor + (cs.length + 1)
  omega

/-- **A text that is refused makes the document fail at the place and for the reason
    given.** -/
theorem document_refuses (h : Refuses text kind n) (hs : s.isError = false)
    (hahead : s.ahead = text) (j : Journal) :
    ∃ (t : State) (message : String), t.cursor = s.cursor + n ∧
      document.meaning rules s j = .returned (t.fail kind message) j := by
  cases h with
  | leftover harray hrest =>
    have ht := array_complete (j := j) harray s _ hs hahead
    have hbehind := State.ahead_advance hahead
    obtain ⟨message, hfailed⟩ := document_left hs ht hs (by rwa [hbehind])
    exact ⟨_, message, rfl, hfailed⟩
  | nothing =>
    obtain ⟨message, ht⟩ := array_elsewhere hs (by simp [hahead]) j
    rw [hahead] at ht
    exact ⟨s, message, rfl, document_failed hs ht rfl⟩
  | unopened hne hopen =>
    rw [← hahead] at hne hopen
    obtain ⟨message, ht⟩ := array_elsewhere hs hopen j
    rw [ErrorKind.orEnd_of_ne _ hne] at ht
    exact ⟨s, message, rfl, document_failed hs ht rfl⟩
  | @unclosed cs vs hcontent =>
    have hopen : s.ahead = '[' :: (cs ++ []) := by rw [hahead, List.append_nil]
    have hlongest : LongestContent (cs ++ []) cs := by
      rw [List.append_nil]
      exact hcontent.longest
    obtain ⟨t, message, hcursor, ht⟩ := array_interrupted hs hopen hlongest nofun j
    exact ⟨t, message, hcursor, document_failed hs ht rfl⟩
  | interrupted hlongest hne hclose =>
    obtain ⟨t, message, hcursor, ht⟩ := array_interrupted hs hahead hlongest hclose j
    rw [ErrorKind.orEnd_of_ne _ hne] at ht
    exact ⟨t, message, hcursor, document_failed hs ht rfl⟩

/-- **Every text is an array or is refused.** -/
theorem array_or_refused (text : List Char) :
    (∃ v, IsArray text v) ∨ ∃ kind n, Refuses text kind n := by
  by_cases hopen : ∃ rest, text = '[' :: rest
  · obtain ⟨rest, rfl⟩ := hopen
    obtain ⟨cs, vs, rest, hcontent, rfl, hlongest⟩ := exists_longestContent rest
    by_cases hclose : ∃ rest', rest = ']' :: rest'
    · obtain ⟨rest, rfl⟩ := hclose
      have hsplit : '[' :: (cs ++ ']' :: rest) = ('[' :: (cs ++ [']'])) ++ rest := by
        rw [List.cons_append, List.append_assoc]
        rfl
      rw [hsplit]
      by_cases hrest : rest = []
      · rw [hrest, List.append_nil]
        exact .inl ⟨_, hcontent.isArray⟩
      · exact .inr ⟨_, _, .leftover hcontent.isArray hrest⟩
    · by_cases hrest : rest = []
      · rw [hrest, List.append_nil]
        exact .inr ⟨_, _, .unclosed hcontent⟩
      · exact .inr ⟨_, _, .interrupted hlongest hrest (not_exists.mp hclose)⟩
  · by_cases hne : text = []
    · rw [hne]
      exact .inr ⟨_, _, .nothing⟩
    · exact .inr ⟨_, _, .unopened hne (not_exists.mp hopen)⟩

/-! ### The document -/

/-- The document fails on the texts that are refused, as they are refused, and on no
    others. -/
theorem document_report (text : Text) (j : Journal) :
    ∃ s, document.meaning rules (State.initial text) j = .returned s j ∧
      (s.isError = true ↔ ∀ v, ¬IsArray text.toList v) ∧
      (s.isError = true → ∃ kind c, s.FailedAt kind c) ∧
      ∀ kind c, s.FailedAt kind c ↔ Refuses text.toList kind c := by
  obtain ⟨s, hs, hcases⟩ := document_answer text j
  have hrefuses : ∀ kind c, Refuses text.toList kind c → s.FailedAt kind c := by
    intro kind c h
    obtain ⟨t, message, hcursor, ht⟩ := document_refuses h rfl (State.ahead_initial text) j
    have heq := hs.symm.trans ht
    cases heq
    exact .fail (hcursor.trans (Nat.zero_add c)) kind message
  have harray : s.isError = true ↔ ∀ v, ¬IsArray text.toList v := by
    rcases hcases with ⟨hfailed, hnone⟩ | ⟨hok, -, hresult⟩
    · exact iff_of_true hfailed hnone
    · refine iff_of_false (fun hfailed => ?_) fun hnone => hnone _ ((hresult _).mpr rfl)
      exact Bool.false_ne_true (hok.symm.trans hfailed)
  have hfailed : s.isError = true → ∃ kind c, Refuses text.toList kind c := by
    intro hfailed
    rcases array_or_refused text.toList with ⟨v, hv⟩ | hrefused
    · exact absurd hv (harray.mp hfailed v)
    · exact hrefused
  refine ⟨s, hs, harray, fun h => ?_, State.FailedAt.iff_of hrefuses hfailed⟩
  obtain ⟨kind, c, hrefused⟩ := hfailed h
  exact ⟨kind, c, hrefuses kind c hrefused⟩

theorem refuses_message_iff : Refuses text .message n ↔
    ∃ cs v, IsArray cs v ∧ cs <+: text ∧ cs ≠ text ∧ n = cs.length := by
  constructor
  · intro h
    cases h with
    | @leftover cs rest v harray hrest =>
      exact ⟨cs, v, harray, ⟨rest, rfl⟩, fun h => hrest (List.self_eq_append_right.mp h), rfl⟩
  · rintro ⟨cs, v, harray, ⟨rest, rfl⟩, hne, rfl⟩
    refine .leftover harray fun hrest => hne ?_
    rw [hrest, List.append_nil]

theorem refuses_endOfInput_iff : Refuses text .endOfInput n ↔
    (text = [] ∨ ∃ cs vs, IsContent cs vs ∧ text = '[' :: cs) ∧ n = text.length := by
  constructor
  · intro h
    cases h with
    | nothing => exact ⟨.inl rfl, rfl⟩
    | unclosed hcontent => exact ⟨.inr ⟨_, _, hcontent, rfl⟩, rfl⟩
  · rintro ⟨rfl | ⟨cs, vs, hcontent, rfl⟩, rfl⟩
    · exact .nothing
    · exact .unclosed hcontent

theorem refuses_literalMismatch (h : Refuses text .literalMismatch n) :
    (n = 0 ∧ ∀ rest, text ≠ '[' :: rest) ∨
      ∃ cs rest, text = '[' :: rest ∧ LongestContent rest cs ∧ n = cs.length + 1 := by
  cases h with
  | unopened _ hopen => exact .inl ⟨rfl, hopen⟩
  | interrupted hlongest _ _ => exact .inr ⟨_, _, rfl, hlongest, rfl⟩

theorem Refuses.kind_cases (h : Refuses text kind n) :
    kind = .message ∨ kind = .endOfInput ∨ kind = .literalMismatch := by
  cases h <;> simp

/-- **What the document reports when it fails.**  It fails exactly if the text is no array,
    and then for one of three reasons.  It reports a message of the grammar if and only if an
    array begins the text and is not all of it; the position is where that array ends.  It
    reports the end of the input, at the end of the text, if and only if the text is empty or
    is an opening bracket and content up to its end.  Otherwise it reports a literal that is
    missing: at the start of a text without an opening bracket, or else behind the longest
    content after it. -/
theorem run_reports_outermost_fault (text : Text) (j : Journal) :
    ∃ s k n, (∀ fuel, n ≤ fuel → run fuel text j = .returned s k) ∧
      (s.isError = true ↔ ∀ v, ¬IsArray text.toList v) ∧
      (s.isError = true → ∃ kind c, s.FailedAt kind c ∧
        (kind = .message ∨ kind = .endOfInput ∨ kind = .literalMismatch)) ∧
      (∀ c, s.FailedAt .message c ↔
        ∃ cs v, IsArray cs v ∧ cs <+: text.toList ∧ cs ≠ text.toList ∧ c = cs.length) ∧
      (∀ c, s.FailedAt .endOfInput c ↔
        (text.toList = [] ∨ ∃ cs vs, IsContent cs vs ∧ text.toList = '[' :: cs) ∧
          c = text.size) ∧
      ∀ c, s.FailedAt .literalMismatch c →
        (c = 0 ∧ ∀ rest, text.toList ≠ '[' :: rest) ∨
          ∃ cs rest, text.toList = '[' :: rest ∧ LongestContent rest cs ∧ c = cs.length + 1 := by
  obtain ⟨k, hrun⟩ := Grammar.exists_run_returned rules document text j
  obtain ⟨s, hs, harray, hfailed, hrefuses⟩ := document_report text k
  obtain ⟨m, n, hn⟩ := hrun s k hs
  refine ⟨s, m, n, hn, harray, fun h => ?_, fun c => ?_, fun c => ?_, fun c h => ?_⟩
  · obtain ⟨kind, c, hreport⟩ := hfailed h
    exact ⟨kind, c, hreport, ((hrefuses kind c).mp hreport).kind_cases⟩
  · rw [hrefuses, refuses_message_iff]
  · rw [hrefuses, refuses_endOfInput_iff, Text.length_toList]
  · exact refuses_literalMismatch ((hrefuses _ c).mp h)

end Descent.Demo.NestedArray
