/-
  Descent/Proofs/Dice.lean
  ========================
  **What the demo grammar of labelled payloads makes of every text.**

  The texts that the grammar accepts, and where and why it refuses the others, are
  written down without it: `Accepts` and `Refuses` speak of characters and of runs of one
  class that are as long as possible.  They are made of what they say of a payload alone,
  `Payload` and `Misfit`, for it is only the payload that depends on what was read before.

  The grammar is followed node by node, from a state of which is known what is ahead.
  What is ahead of a node behind it is then known again, so each node needs one lemma for
  what it finds and one for what it misses, and no induction: there is no loop here.
  Nothing else can be ahead (`accepts_or_refuses`), so the grammar gives an answer on
  every text (`run_answers_every_text`).
-/
import Descent.Demo.Dice
import Descent.Proofs.Ahead
import Descent.Proofs.Steps
import Mathlib.Data.List.TakeWhile

namespace Descent.Demo.Dice

/-! ### The texts -/

/-- The characters `cs` are of one class, and in front of `rest` there are no more of
    them to take. -/
structure LongestRun (ok : Char → Bool) (cs rest : List Char) : Prop where
  ne : cs ≠ []
  all : ∀ c ∈ cs, ok c = true
  stops : rest.takeWhile ok = []

/-- Behind the label the characters go on with a payload of `n` characters. -/
inductive Payload : String → List Char → Value → Nat → Prop where
  | word {cs rest : List Char} (h : LongestRun Char.isAlpha cs rest) :
      Payload "string" (cs ++ rest) (tagged "string" (.str (String.ofList cs))) cs.length
  | number {cs rest : List Char} (h : LongestRun Char.isDigit cs rest) :
      Payload "number" (cs ++ rest) (tagged "number" (.int (Numeral.ofDigits cs))) cs.length
  | roll {dice sides rest : List Char}
      (hdice : LongestRun Char.isDigit dice ('d' :: (sides ++ rest)))
      (hsides : LongestRun Char.isDigit sides rest) :
      Payload "diceroll" (dice ++ 'd' :: (sides ++ rest))
        (tagged "diceroll"
          (.list [.int (Numeral.ofDigits dice), .int (Numeral.ofDigits sides)]))
        (dice.length + 1 + sides.length)

/-- Behind the label the first thing that does not fit is `n` characters further on. -/
inductive Misfit : String → List Char → ErrorKind → Nat → Prop where
  | label {label : String} {rest : List Char}
      (h : label ∉ ["string", "number", "diceroll"]) :
      Misfit label rest .message 0
  | word {rest : List Char} (h : rest.takeWhile Char.isAlpha = []) :
      Misfit "string" rest (ErrorKind.classMismatch.orEnd rest) 0
  | number {rest : List Char} (h : rest.takeWhile Char.isDigit = []) :
      Misfit "number" rest (ErrorKind.classMismatch.orEnd rest) 0
  | dice {rest : List Char} (h : rest.takeWhile Char.isDigit = []) :
      Misfit "diceroll" rest (ErrorKind.classMismatch.orEnd rest) 0
  | letter {dice rest : List Char} (hdice : LongestRun Char.isDigit dice rest)
      (h : ∀ rest', rest ≠ 'd' :: rest') :
      Misfit "diceroll" (dice ++ rest) (ErrorKind.literalMismatch.orEnd rest) dice.length
  | sides {dice rest : List Char} (hdice : LongestRun Char.isDigit dice ('d' :: rest))
      (h : rest.takeWhile Char.isDigit = []) :
      Misfit "diceroll" (dice ++ 'd' :: rest) (ErrorKind.classMismatch.orEnd rest)
        (dice.length + 1)

/-- The text begins with a label, a colon and a payload of that value, which end at the
    cursor. -/
inductive Accepts : List Char → Value → Nat → Prop where
  | intro {label rest : List Char} {v : Value} {n : Nat}
      (hlabel : LongestRun Char.isAlpha label (':' :: rest))
      (h : Payload (String.ofList label) rest v n) :
      Accepts (label ++ ':' :: rest) v (label.length + 1 + n)

/-- The first place of the text that does not fit, and the kind of failure there. -/
inductive Refuses : List Char → ErrorKind → Nat → Prop where
  | label {text : List Char} (h : text.takeWhile Char.isAlpha = []) :
      Refuses text (ErrorKind.classMismatch.orEnd text) 0
  | colon {label rest : List Char} (hlabel : LongestRun Char.isAlpha label rest)
      (h : ∀ rest', rest ≠ ':' :: rest') :
      Refuses (label ++ rest) (ErrorKind.literalMismatch.orEnd rest) label.length
  | payload {label rest : List Char} {kind : ErrorKind} {n : Nat}
      (hlabel : LongestRun Char.isAlpha label (':' :: rest))
      (h : Misfit (String.ofList label) rest kind n) :
      Refuses (label ++ ':' :: rest) kind (label.length + 1 + n)

/-! ### Every text is one or the other -/

theorem LongestRun.takeWhile {ok : Char → Bool} {cs rest : List Char}
    (h : LongestRun ok cs rest) : (cs ++ rest).takeWhile ok = cs := by
  rw [List.takeWhile_append_of_pos h.all, h.stops, List.append_nil]

theorem longestRun_or_none (ok : Char → Bool) (text : List Char) :
    text.takeWhile ok = [] ∨ ∃ cs rest, text = cs ++ rest ∧ LongestRun ok cs rest := by
  by_cases hne : text.takeWhile ok = []
  · exact .inl hne
  · refine .inr ⟨text.takeWhile ok, text.dropWhile ok, List.takeWhile_append_dropWhile.symm, hne,
      List.all_eq_true.mp List.all_takeWhile, ?_⟩
    exact List.takeWhile_eq_nil_iff.mpr (List.dropWhile_get_zero_not ok text)

theorem eq_cons_or_forall_ne (c : Char) (text : List Char) :
    (∃ rest, text = c :: rest) ∨ ∀ rest, text ≠ c :: rest := by
  by_cases h : ∃ rest, text = c :: rest
  · exact .inl h
  · exact .inr (not_exists.mp h)

theorem payload_or_misfit (label : String) (text : List Char) :
    (∃ v n, Payload label text v n) ∨ ∃ kind n, Misfit label text kind n := by
  by_cases hknown : label ∈ ["string", "number", "diceroll"]
  · simp only [List.mem_cons, List.not_mem_nil, or_false] at hknown
    rcases hknown with rfl | rfl | rfl
    · rcases longestRun_or_none Char.isAlpha text with hnone | ⟨cs, rest, rfl, hcs⟩
      · exact .inr ⟨_, _, .word hnone⟩
      · exact .inl ⟨_, _, .word hcs⟩
    · rcases longestRun_or_none Char.isDigit text with hnone | ⟨cs, rest, rfl, hcs⟩
      · exact .inr ⟨_, _, .number hnone⟩
      · exact .inl ⟨_, _, .number hcs⟩
    · rcases longestRun_or_none Char.isDigit text with hnone | ⟨dice, rest, rfl, hdice⟩
      · exact .inr ⟨_, _, .dice hnone⟩
      rcases eq_cons_or_forall_ne 'd' rest with ⟨rest, rfl⟩ | hletter
      · rcases longestRun_or_none Char.isDigit rest with hnone | ⟨sides, rest, rfl, hsides⟩
        · exact .inr ⟨_, _, .sides hdice hnone⟩
        · exact .inl ⟨_, _, .roll hdice hsides⟩
      · exact .inr ⟨_, _, .letter hdice hletter⟩
  · exact .inr ⟨_, _, .label hknown⟩

theorem accepts_or_refuses (text : List Char) :
    (∃ v n, Accepts text v n) ∨ ∃ kind n, Refuses text kind n := by
  rcases longestRun_or_none Char.isAlpha text with hnone | ⟨label, rest, rfl, hlabel⟩
  · exact .inr ⟨_, _, .label hnone⟩
  rcases eq_cons_or_forall_ne ':' rest with ⟨rest, rfl⟩ | hcolon
  · rcases payload_or_misfit (String.ofList label) rest with ⟨v, n, h⟩ | ⟨kind, n, h⟩
    · exact .inl ⟨_, _, .intro hlabel h⟩
    · exact .inr ⟨_, _, .payload hlabel h⟩
  · exact .inr ⟨_, _, .colon hlabel hcolon⟩

/-! ### What the grammar does, node by node -/

theorem word_meaning : word.meaning [] = Parser.map (Parser.regex "letters" Pattern.letters)
    fun v => (pure (tagged "string" v) : Response Value).run := by
  simp only [word, Grammar.letters, Grammar.meaning_map, Grammar.meaning_regex]

theorem number_meaning : number.meaning [] = Parser.map (Parser.regex "digits" Pattern.digits)
    fun v => (do return tagged "number" (← Grammar.readInteger v) : Response Value).run := by
  simp only [number, Grammar.digits, Grammar.meaning_map, Grammar.meaning_regex]

/-- The value of a roll, made of the results of its three parts. -/
def rollValue (v : Value) : Response Value := do
  let dice ← Grammar.readInteger (← Grammar.pick 0 v)
  let sides ← Grammar.readInteger (← Grammar.pick 2 v)
  return tagged "diceroll" (.list [dice, sides])

/-- The three parts of a roll. -/
def rollParts : Parser :=
  Parser.sequence [Parser.regex "digits" Pattern.digits, Parser.literal "d",
    Parser.regex "digits" Pattern.digits]

theorem roll_meaning : roll.meaning [] = rollParts.map fun v => (rollValue v).run := by
  simp only [roll, rollParts, Grammar.digits, Grammar.meaning_map, Grammar.meaning_sequence,
    List.map, Grammar.meaning_regex, Grammar.meaning_literal]
  rfl

/-- The label and the colon. -/
def headingParts : Parser :=
  Parser.sequence [Parser.regex "letters" Pattern.letters, Parser.literal ":"]

/-- The label, read off its two parts. -/
def heading : Parser := headingParts.map fun v => (Grammar.pick 0 v).run

theorem document_meaning :
    document.meaning [] = heading.chain fun v => pure ((payload v).meaning []) := by
  simp only [document, heading, headingParts, Grammar.letters, Grammar.meaning_chain, Grammar.meaning_map,
    Grammar.meaning_sequence, List.map, Grammar.meaning_regex, Grammar.meaning_literal]
  rfl

variable {s t : State} {label : String} {cs rest text : List Char} {v : Value}
  {kind : ErrorKind} {n : Nat}

theorem letters_found (hs : s.isError = false) (hcs : LongestRun Char.isAlpha cs rest)
    (h : s.ahead = cs ++ rest) (j : Journal) : Parser.regex "letters" Pattern.letters s j
      = .returned (s.advance (s.cursor + cs.length) (.str (String.ofList cs))) j := by
  have hrun : s.ahead.takeWhile Char.isAlpha = cs := by rw [h, hcs.takeWhile]
  exact congrFun (Parser.letters_here hs hrun hcs.ne) j

theorem digits_found (hs : s.isError = false) (hcs : LongestRun Char.isDigit cs rest)
    (h : s.ahead = cs ++ rest) (j : Journal) : Parser.regex "digits" Pattern.digits s j
      = .returned (s.advance (s.cursor + cs.length) (.str (String.ofList cs))) j := by
  have hrun : s.ahead.takeWhile Char.isDigit = cs := by rw [h, hcs.takeWhile]
  exact congrFun (Parser.digits_here hs hrun hcs.ne) j

theorem readInteger_found (hcs : LongestRun Char.isDigit cs rest) :
    Grammar.readInteger (.str (String.ofList cs)) = pure (.int (Numeral.ofDigits cs)) :=
  Grammar.readInteger_digits hcs.ne hcs.all

/-! ### The payload -/

/-- Two parts are left behind the first number of a roll. -/
theorem rollParts_behind_dice (hs : s.isError = false) (hcs : LongestRun Char.isDigit cs rest)
    (h : s.ahead = cs ++ rest) (j : Journal) : ∃ t, s.Behind cs.length rest t ∧
      rollParts s j = Parser.sequenceFrom [Parser.literal "d", Parser.regex "digits" Pattern.digits]
        [.str (String.ofList cs)] t j := by
  refine ⟨_, .advance_run hs h (.str (String.ofList cs)), ?_⟩
  rw [rollParts, Parser.sequence_eq hs, Parser.sequenceFrom_ok (digits_found hs hcs h j) hs]
  rfl

/-- One part is left behind the letter. -/
theorem rollParts_behind_letter (hs : s.isError = false)
    (hcs : LongestRun Char.isDigit cs ('d' :: rest)) (h : s.ahead = cs ++ 'd' :: rest)
    (j : Journal) : ∃ t, s.Behind (cs.length + 1) rest t ∧
      rollParts s j = Parser.sequenceFrom [Parser.regex "digits" Pattern.digits]
        [.str "d", .str (String.ofList cs)] t j := by
  obtain ⟨t, ht, hparts⟩ := rollParts_behind_dice hs hcs h j
  have hletter := congrFun (Parser.literal_here (by decide : "d" ≠ "") ht.ok ht.ahead) j
  refine ⟨_, ht.advance_one (.str "d"), ?_⟩
  rw [hparts, Parser.sequenceFrom_ok hletter ht.ok]
  rfl

/-- The digits of a roll are read as numbers when all three parts are there. -/
theorem rollValue_found {dice sides : List Char}
    (hdice : LongestRun Char.isDigit dice ('d' :: (sides ++ rest)))
    (hsides : LongestRun Char.isDigit sides rest) :
    rollValue (.list [.str (String.ofList dice), .str "d", .str (String.ofList sides)])
      = pure (tagged "diceroll"
          (.list [.int (Numeral.ofDigits dice), .int (Numeral.ofDigits sides)])) := by
  have hread : rollValue (.list [.str (String.ofList dice), .str "d", .str (String.ofList sides)])
      = Grammar.readInteger (.str (String.ofList dice)) >>= fun v =>
          Grammar.readInteger (.str (String.ofList sides)) >>= fun w =>
            pure (tagged "diceroll" (.list [v, w])) := rfl
  rw [hread, readInteger_found hdice, readInteger_found hsides]
  rfl

theorem payload_unknown (h : label ∉ ["string", "number", "diceroll"]) :
    payload (.str label) = .fail ("unknown label " ++ (Value.str label).literal) := by
  simp only [List.mem_cons, List.not_mem_nil, or_false, not_or] at h
  obtain ⟨hword, hnumber, hroll⟩ := h
  rw [payload]
  · exact fun heq => hword (Value.str.inj heq)
  · exact fun heq => hnumber (Value.str.inj heq)
  · exact fun heq => hroll (Value.str.inj heq)

/-- **In front of a payload of its label, the grammar finds it.** -/
theorem payload_found (h : Payload label text v n) (hs : s.isError = false)
    (hahead : s.ahead = text) (j : Journal) :
    (payload (.str label)).meaning [] s j = .returned (s.advance (s.cursor + n) v) j := by
  cases h with
  | word hcs =>
    rw [payload, word_meaning]
    exact Parser.map_ok (letters_found hs hcs hahead j) hs rfl
  | number hcs =>
    rw [payload, number_meaning]
    refine Parser.map_ok (digits_found hs hcs hahead j) hs ?_
    rw [State.advance, readInteger_found hcs]
    rfl
  | @roll dice sides rest hdice hsides =>
    obtain ⟨t, ht, hbehind⟩ := rollParts_behind_letter hs hdice hahead j
    have hparts : rollParts s j = .returned (s.advance (s.cursor + (dice.length + 1 + sides.length))
        (.list [.str (String.ofList dice), .str "d", .str (String.ofList sides)])) j := by
      rw [hbehind, Parser.sequenceFrom_ok (digits_found ht.ok hsides ht.ahead j) ht.ok,
        ht.advance, ht.cursor, Nat.add_assoc s.cursor]
      rfl
    rw [payload, roll_meaning]
    refine Parser.map_ok hparts hs ?_
    rw [State.advance, rollValue_found hdice hsides]
    rfl

/-- **At a misfit, the payload that the label asks for fails.** -/
theorem payload_missed (h : Misfit label text kind n) (hs : s.isError = false)
    (hahead : s.ahead = text) (j : Journal) :
    ∃ (t : State) (message : String), t.cursor = s.cursor + n ∧
      (payload (.str label)).meaning [] s j = .returned (t.fail kind message) j := by
  cases h with
  | label hunknown =>
    refine ⟨s, "unknown label " ++ (Value.str label).literal, rfl, ?_⟩
    rw [payload_unknown hunknown, Grammar.meaning_fail, Parser.fail, hs,
      if_neg Bool.false_ne_true]
    rfl
  | word hnone =>
    obtain ⟨message, ht⟩ := Parser.letters_missing hs (hahead ▸ hnone)
    rw [payload, word_meaning, ← hahead]
    exact ⟨s, message, rfl, Parser.map_failed (congrFun ht j) rfl⟩
  | number hnone =>
    obtain ⟨message, ht⟩ := Parser.digits_missing hs (hahead ▸ hnone)
    rw [payload, number_meaning, ← hahead]
    exact ⟨s, message, rfl, Parser.map_failed (congrFun ht j) rfl⟩
  | dice hnone =>
    obtain ⟨message, ht⟩ := Parser.digits_missing hs (hahead ▸ hnone)
    rw [payload, roll_meaning, ← hahead]
    refine ⟨s, message, rfl, Parser.map_failed ?_ rfl⟩
    rw [rollParts, Parser.sequence_eq hs]
    exact Parser.sequenceFrom_failed (congrFun ht j) rfl
  | letter hdice hletter =>
    obtain ⟨t, ht, hparts⟩ := rollParts_behind_dice hs hdice hahead j
    have hmissing : ¬"d".toList <+: t.ahead := by
      rw [ht.ahead]
      exact fun ⟨rest', h⟩ => hletter rest' h.symm
    obtain ⟨message, hfailed⟩ := Parser.literal_missing ht.ok hmissing
    rw [payload, roll_meaning, ← ht.ahead]
    refine ⟨t, message, ht.cursor, Parser.map_failed (hparts.trans ?_) rfl⟩
    exact Parser.sequenceFrom_failed (congrFun hfailed j) rfl
  | sides hdice hnone =>
    obtain ⟨t, ht, hparts⟩ := rollParts_behind_letter hs hdice hahead j
    rw [← ht.ahead] at hnone
    obtain ⟨message, hfailed⟩ := Parser.digits_missing ht.ok hnone
    rw [payload, roll_meaning, ← ht.ahead]
    refine ⟨t, message, ht.cursor, Parser.map_failed (hparts.trans ?_) rfl⟩
    exact Parser.sequenceFrom_failed (congrFun hfailed j) rfl

/-! ### The whole document -/

/-- The colon is left behind the label. -/
theorem headingParts_behind_label (hs : s.isError = false)
    (hcs : LongestRun Char.isAlpha cs rest) (h : s.ahead = cs ++ rest) (j : Journal) :
    ∃ t, s.Behind cs.length rest t ∧
      headingParts s j
        = Parser.sequenceFrom [Parser.literal ":"] [.str (String.ofList cs)] t j := by
  refine ⟨_, .advance_run hs h (.str (String.ofList cs)), ?_⟩
  rw [headingParts, Parser.sequence_eq hs, Parser.sequenceFrom_ok (letters_found hs hcs h j) hs]
  rfl

/-- Behind a label and a colon the document is the payload of that label. -/
theorem document_behind_colon (hs : s.isError = false)
    (hcs : LongestRun Char.isAlpha cs (':' :: rest)) (h : s.ahead = cs ++ ':' :: rest)
    (j : Journal) : ∃ t, s.Behind (cs.length + 1) rest t ∧
      document.meaning [] s j = (payload (.str (String.ofList cs))).meaning [] t j := by
  obtain ⟨t, ht, hparts⟩ := headingParts_behind_label hs hcs h j
  have hcolon := congrFun (Parser.literal_here (by decide : ":" ≠ "") ht.ok ht.ahead) j
  rw [Parser.sequenceFrom_ok hcolon ht.ok] at hparts
  have hheading : heading s j
      = .returned (t.advance (t.cursor + 1) (.str (String.ofList cs))) j :=
    Parser.map_ok (f := fun v => (Grammar.pick 0 v).run) hparts ht.ok rfl
  refine ⟨_, ht.advance_one (.str (String.ofList cs)), ?_⟩
  rw [document_meaning]
  exact Parser.chain_ok hheading ht.ok rfl

/-- **A text that is accepted makes the document succeed, with the value and the place
    given.** -/
theorem document_accepts (h : Accepts text v n) (hs : s.isError = false) (hahead : s.ahead = text)
    (j : Journal) :
    document.meaning [] s j = .returned (s.advance (s.cursor + n) v) j := by
  cases h with
  | intro hlabel hpayload =>
    obtain ⟨t, ht, hdocument⟩ := document_behind_colon hs hlabel hahead j
    rw [hdocument, payload_found hpayload ht.ok ht.ahead, ht.advance, ht.cursor, Nat.add_assoc]

/-- **A text that is refused makes the document fail, at the place and for the reason
    given.** -/
theorem document_refuses (h : Refuses text kind n) (hs : s.isError = false)
    (hahead : s.ahead = text) (j : Journal) :
    ∃ (t : State) (message : String), t.cursor = s.cursor + n ∧
      document.meaning [] s j = .returned (t.fail kind message) j := by
  cases h with
  | label hnone =>
    obtain ⟨message, ht⟩ := Parser.letters_missing hs (hahead ▸ hnone)
    rw [document_meaning, ← hahead]
    refine ⟨s, message, rfl, Parser.chain_failed (Parser.map_failed ?_ rfl) rfl⟩
    rw [headingParts, Parser.sequence_eq hs]
    exact Parser.sequenceFrom_failed (congrFun ht j) rfl
  | colon hlabel hcolon =>
    obtain ⟨t, ht, hparts⟩ := headingParts_behind_label hs hlabel hahead j
    have hmissing : ¬":".toList <+: t.ahead := by
      rw [ht.ahead]
      exact fun ⟨rest', h⟩ => hcolon rest' h.symm
    obtain ⟨message, hfailed⟩ := Parser.literal_missing ht.ok hmissing
    rw [document_meaning, ← ht.ahead]
    have hheading := hparts.trans (Parser.sequenceFrom_failed (congrFun hfailed j) rfl)
    exact ⟨t, message, ht.cursor, Parser.chain_failed (Parser.map_failed hheading rfl) rfl⟩
  | payload hlabel hmisfit =>
    obtain ⟨t, ht, hdocument⟩ := document_behind_colon hs hlabel hahead j
    obtain ⟨u, message, hu, hfailed⟩ := payload_missed hmisfit ht.ok ht.ahead j
    refine ⟨u, message, ?_, hdocument.trans hfailed⟩
    rw [hu, ht.cursor, Nat.add_assoc]

/-- The state that the document returns on a text says which text it was. -/
theorem document_answer (text : Text) (j : Journal) :
    ∃ s, document.meaning [] (State.initial text) j = .returned s j ∧
      (∀ v c, s.isError = false ∧ s.result = v ∧ s.cursor = c ↔ Accepts text.toList v c) ∧
      ∀ kind c, s.FailedAt kind c ↔ Refuses text.toList kind c := by
  have hahead := State.ahead_initial text
  have hanswer : ∃ s, document.meaning [] (State.initial text) j = .returned s j := by
    rcases accepts_or_refuses text.toList with ⟨v, c, h⟩ | ⟨kind, c, h⟩
    · exact ⟨_, document_accepts h rfl hahead j⟩
    · obtain ⟨t, message, -, ht⟩ := document_refuses h rfl hahead j
      exact ⟨_, ht⟩
  obtain ⟨s, hs⟩ := hanswer
  have haccepts : ∀ v c, Accepts text.toList v c →
      s.isError = false ∧ s.result = v ∧ s.cursor = c := by
    intro v c h
    have heq := hs.symm.trans (document_accepts h rfl hahead j)
    cases heq
    exact ⟨rfl, rfl, Nat.zero_add c⟩
  have hrefuses : ∀ kind c, Refuses text.toList kind c → s.FailedAt kind c := by
    intro kind c h
    obtain ⟨t, message, hcursor, ht⟩ := document_refuses h rfl hahead j
    have heq := hs.symm.trans ht
    cases heq
    exact .fail (hcursor.trans (Nat.zero_add c)) kind message
  refine ⟨s, hs, fun v c => ⟨?_, haccepts v c⟩, State.FailedAt.iff_of hrefuses fun hfailed => ?_⟩
  · rintro ⟨hok, rfl, rfl⟩
    rcases accepts_or_refuses text.toList with ⟨v, c, h⟩ | ⟨kind, c, h⟩
    · obtain ⟨-, rfl, rfl⟩ := haccepts v c h
      exact h
    · exact absurd (hok.symm.trans (hrefuses kind c h).isError) Bool.false_ne_true
  · rcases accepts_or_refuses text.toList with ⟨v, c, h⟩ | hrefused
    · exact absurd ((haccepts v c h).1.symm.trans hfailed) Bool.false_ne_true
    · exact hrefused

end Descent.Demo.Dice
