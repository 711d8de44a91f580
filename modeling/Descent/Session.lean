/-
  Descent/Session.lean
  ====================
  **Working with grammars step by step.**

  A session remembers the rules defined so far, the states that were kept under a
  name, and the debug switch.  A step may first define rules and then makes one
  request; it is answered, and its journal holds what it recorded and logged.  A
  fault is an answer too, and the session goes on after it: rules that were defined
  before the fault stay, and so does the debug switch.
-/
import Descent.Outline.Build
import Descent.Grammar.Run
import Descent.Demo.Dice
import Descent.Demo.NestedArray

namespace Descent

/-- What is remembered from step to step. -/
structure Session where
  rules : Rules := []
  slots : List (String × State) := []
  debug : Bool := false

namespace Session

/-! ### Requests -/

/-- Where a request finds a state. -/
inductive Source where
  /-- Under the name it was kept under. -/
  | slot (name : String)
  | given (state : State)

/-- What can be done to a state. -/
inductive Change where
  | keep
  | advance (cursor : Nat) (result : Value)
  | withResult (result : Value)
  | withError (error : Option ParseError)
  | fail (kind : ErrorKind) (message : String)

def Change.apply : Change → State → State
  | .keep, s => s
  | .advance cursor result, s => s.advance cursor result
  | .withResult result, s => s.withResult result
  | .withError error, s => s.withError error
  | .fail kind message, s => s.fail kind message

/-- The command lines that come with the library. -/
inductive Script where
  | dice
  | nestedArray
deriving DecidableEq, Repr

def Script.transcript (fuel : Nat) : Script → List String → Run String
  | .dice, _ => Demo.Dice.transcript fuel Demo.Dice.samples
  | .nestedArray, args => Demo.NestedArray.transcript fuel args

/-- One request.  Where `keep` is given, the state of the answer is kept under that
    name. -/
inductive Request where
  /-- Parses a text and answers with the terminal state. -/
  | run (outline : Outline) (text : Text) (keep : Option String)
  /-- Parses a text and answers with the result; an error is a fault. -/
  | parse (outline : Outline) (text : Text)
  /-- Parses a text and answers with the result or the error. -/
  | attempt (outline : Outline) (text : Text)
  /-- Answers with the name of a grammar. -/
  | describe (outline : Outline)
  /-- Defines a rule and answers with the name of its grammar. -/
  | define (name : String) (outline : Outline)
  | apply (outline : Outline) (source : Source) (keep : Option String)
  | setDebug (on : Bool)
  | isDebug
  /-- Answers with an error as it is. -/
  | showError (error : ParseError)
  | same (first second : Source)
  | initial (text : Text) (keep : Option String)
  | change (source : Source) (change : Change) (keep : Option String)
  | atEnd (source : Source)
  /-- Parses a text as a label with its payload. -/
  | dice (text : Text)
  | nestedArray (text : Text)
  | script (script : Script) (args : List String)

structure Step where
  rules : List (String × Outline) := []
  request : Request

/-! ### Answers -/

inductive Answer where
  /-- A terminal state, with the name of the grammar if it is asked for. -/
  | outcome (name : Option String) (state : State)
  /-- A state, with its input. -/
  | state (state : State)
  | value (value : Value)
  /-- A result, or no result and perhaps an error. -/
  | valueOrError (value : Value) (error : Option ParseError)
  | grammar (name : String)
  | debug (on : Bool)
  | error (error : ParseError)
  | same (same : Bool)
  | atEnd (atEnd : Bool)
  | printed (text : String)
  | fault (fault : Fault)
  | exhausted

/-- Bounds how deep applications nest and how many rounds a loop makes; no text
    that fits into memory comes near it. -/
def fuel : Nat := Nat.pow 2 40

/-- Lets a fault of an outline end a run. -/
def orRaise {α : Type} : Except Fault α → Run α
  | .ok a => pure a
  | .error fault => Run.raise fault

def find (session : Session) : Source → Run State
  | .given state => pure state
  | .slot name =>
    match session.slots.lookup name with
    | some state => pure state
    | none => Run.raise (.unknownSlot name)

/-- Puts a grammar together from the rules of the session. -/
def grammar (session : Session) (outline : Outline) : Run Grammar :=
  orRaise (outline.build { rules := session.rules })

/-- Keeps a state under a name, if one is given. -/
def keep (session : Session) (name : Option String) (state : State) : Session :=
  match name with
  | some name => { session with slots := (name, state) :: session.slots }
  | none => session

/-- Defines a rule; an older one of that name is hidden. -/
def define (session : Session) (name : String) (g : Grammar) : Session :=
  { session with rules := (name, g) :: session.rules }

/-- Carries out a request.  The session that comes back is the one that holds what
    the request defined and kept. -/
def answer (session : Session) : Request → Run (Answer × Session)
  | .run outline text name => do
    let g ← session.grammar outline
    let s ← g.run session.rules fuel text
    return (.outcome (some g.name) s, session.keep name s)
  | .parse outline text => do
    let g ← session.grammar outline
    return (.value (← g.parse session.rules fuel text), session)
  | .attempt outline text => do
    let g ← session.grammar outline
    let (value, error) ← g.attempt session.rules fuel text
    return (.valueOrError value error, session)
  | .describe outline => do
    let g ← session.grammar outline
    return (.grammar g.name, session)
  | .define name outline => do
    let g ← session.grammar outline
    return (.grammar g.name, session.define name g)
  | .apply outline source name => do
    let g ← session.grammar outline
    let s ← g.parser session.rules fuel (← session.find source)
    return (.outcome (some g.name) s, session.keep name s)
  | .setDebug on => do
    (Response.effect (.setDebug on)).run
    return (.debug (← Run.debugging), session)
  | .isDebug => return (.debug (← Run.debugging), session)
  | .showError e => return (.error e, session)
  | .same first second => do
    let s ← session.find first
    let t ← session.find second
    return (.same (s.same t), session)
  | .initial text name => return (.state (.initial text), session.keep name (.initial text))
  | .change source change name => do
    let s := change.apply (← session.find source)
    return (.state s, session.keep name s)
  | .atEnd source => return (.atEnd (← session.find source).atEnd, session)
  | .dice text => return (.outcome none (← Demo.Dice.run fuel text), session)
  | .nestedArray text => return (.outcome none (← Demo.NestedArray.run fuel text), session)
  | .script script args => return (.printed (← script.transcript fuel args), session)

/-- Defines rules in order, each with the ones before it in the table.  A fault
    ends it and is given beside the session with the rules defined so far. -/
def defineAll (session : Session) : List (String × Outline) → Session × Option Fault
  | [] => (session, none)
  | (name, outline) :: rest =>
    match outline.build { rules := session.rules } with
    | .ok g => (session.define name g).defineAll rest
    | .error fault => (session, some fault)

/-- Makes one step: the answer, the journal of this step, and the session after
    it. -/
def step (session : Session) (s : Step) : Answer × Journal × Session :=
  let start : Journal := { debug := session.debug }
  match session.defineAll s.rules with
  | (session, some fault) => (.fault fault, start, session)
  | (session, none) =>
    match session.answer s.request start with
    | .returned (answer, next) journal => (answer, journal, { next with debug := journal.debug })
    | .raised fault journal => (.fault fault, journal, { session with debug := journal.debug })
    | .exhausted => (.exhausted, start, session)

def steps (session : Session) : List Step → List (Answer × Journal)
  | [] => []
  | s :: rest =>
    let (answer, journal, next) := session.step s
    (answer, journal) :: next.steps rest

end Session

end Descent
