/-
  Descent/Outline/Build.lean
  ==========================
  **Putting a grammar together from its outline.**

  The parts of an outline are put together from left to right, inner ones first,
  and the first fault ends it.  Inside a deferred part nothing is put together
  until the part is reached: a fault found there becomes a fault of the run, raised
  each time, and behind the calls that the definition records before.
-/
import Descent.Outline.Basic

namespace Descent

namespace Outline

/-- What an outline is put together in: the table of rules, and whether the part
    at hand is deferred. -/
structure Scope where
  rules : Rules
  deferred : Bool := false

/-- A rule by its name.  A deferred reference stays a reference; it keeps the name
    that the rule has so far. -/
def Scope.resolve (scope : Scope) (name : String) : Except Fault Grammar :=
  match scope.rules.lookup name with
  | some g => .ok (if scope.deferred then .named (.rule name) g.name else g)
  | none => if scope.deferred then .ok (.rule name) else .error (.unknownRule name)

/-- A continuation put together: a user function, and what follows its answer. -/
structure Follow where
  prepare : Value → Response Value := pure
  next : Value → Grammar

/-- What follows a result that has to be a string. -/
def literalFollow : Follow where
  prepare := fun v =>
    match v with
    | .str s => pure (.str s)
    | _ => Response.raise (Transform.badValue "string")
  next := fun v => .literal (v.string?.getD "")

/-- What follows a result that has to be a number. -/
def timesFollow (body : Grammar) : Follow where
  prepare := fun v =>
    match v.number? with
    | some n => pure (.int n)
    | none => Response.raise (Transform.badValue "times")
  next := fun v => .sequence (List.replicate ((v.number?.getD 0).toNat) body)

/-- What stands beside the result in a table. -/
def tableFollow (entries : List (String × Grammar)) (default : Grammar) : Follow where
  next := fun v =>
    match v with
    | .str s => (entries.lookup s).getD default
    | _ => default

mutual

/-- Puts a grammar together. -/
def build (scope : Scope) : Outline → Except Fault Grammar
  | .literal text => return .literal text
  | .letters => return Grammar.letters
  | .digits => return Grammar.digits
  | .succeed v => return .succeed v
  | .fail message => return .fail message
  | .endOfInput => return .endOfInput
  | .regex source name flags => return .regex name (← Pattern.compile source name flags)
  | .many (.value v) => .error (.notRepeatable .many v)
  | .many item => return .many (← build scope item)
  | .many1 (.value v) => .error (.notRepeatable .many1 v)
  | .many1 item => return .many1 (← build scope item)
  | .sequence parts => return .sequence (← buildAll scope parts)
  | .choice alternatives => return .choice (← buildAll scope alternatives)
  | .sepBy separator item => do
    let s ← build scope separator
    return .sepBy s (← build scope item)
  | .sepBy1 separator item => do
    let s ← build scope separator
    return .sepBy1 s (← build scope item)
  | .between left right content => do
    let l ← build scope left
    let r ← build scope right
    let c ← build scope content
    return Grammar.between l r c
  | .trace title => return .trace title
  | .traced title body => return .traced title (← build scope body)
  | .map body f => return .map (← build scope body) f.apply
  | .chain body next => do
    let g ← build scope body
    let follow ← buildFollow scope next
    return .chain g follow.prepare follow.next
  | .errorMap body handler => return .errorMap (← build scope body) handler.apply
  | .label body expected => return (← build scope body).label expected
  | .named body name => return .named (← build scope body) name
  | .ref name => scope.resolve name
  | .lazy thunk => buildLazy scope (pure ()) thunk
  | .probe p => return p.grammar
  | .namelessProbe p => return p.nameless
  | .value v => .error (.notParser v)

def buildAll (scope : Scope) : List Outline → Except Fault (List Grammar)
  | [] => return []
  | o :: rest => do
    let g ← build scope o
    return g :: (← buildAll scope rest)

def buildEntries (scope : Scope) :
    List (String × Outline) → Except Fault (List (String × Grammar))
  | [] => return []
  | (key, o) :: rest => do
    let g ← build scope o
    return (key, g) :: (← buildEntries scope rest)

def buildFollow (scope : Scope) : Continuation → Except Fault Follow
  | .constant body => do
    let g ← build scope body
    return { next := fun _ => g }
  | .table entries default => do
    let gs ← buildEntries scope entries
    return tableFollow gs (← build scope default)
  | .succeed => return { next := .succeed }
  | .succeedWith f => return { prepare := f.apply, next := .succeed }
  | .literal => return literalFollow
  | .times body => return timesFollow (← build scope body)
  | .fail opening => return { next := fun v => .fail (opening ++ v.literal) }
  | .raise message =>
    return { prepare := fun _ => Response.raise (.user message), next := .succeed }
  | .spy title next => do
    let follow ← buildFollow scope next
    return { follow with
      prepare := fun v => do
        Response.call title v
        follow.prepare v }

/-- Puts a deferred definition together.  `touch` is what the definition does, each
    time, before its grammar is there. -/
def buildLazy (scope : Scope) (touch : Response Unit) : Thunk → Except Fault Grammar
  | .ref name => return .lazy touch (.rule name)
  | .build body =>
    match build { scope with deferred := true } body with
    | .ok g => return .lazy touch g
    | .error fault => return .lazy (do touch; Response.raise fault) (.fail fault.message)
  | .value v => return .lazy (do touch; Response.raise (.deferredValue v)) (.succeed v)
  | .spy title thunk => buildLazy scope (do touch; Response.call title .null) thunk
  | .notFunction v => .error (.notDeferrable v)
  | .notFunctionButParser body => do
    let g ← build scope body
    .error (.parserNotDeferrable g.name)

end

end Outline

end Descent
