/-
  Descent/Outline/Report.lean
  ===========================
  **A vocabulary of error handlers.**

  A handler is given an error and the cursor at which the parser ended.  It answers
  with a new message or with an error of its own.  Messages are put together from
  parts: fixed text, and what is known about the failure.
-/
import Descent.Journal

namespace Descent

/-- A part of a message. -/
inductive MessagePart where
  | fixed (text : String)
  | cursor
  /-- The cursor, counted from one. -/
  | cursorFromOne
  | position
  | kind
  | message
  | rendered

def MessagePart.render (e : ParseError) (cursor : Nat) : MessagePart → String
  | .fixed text => text
  | .cursor => toString cursor
  | .cursorFromOne => toString (cursor + 1)
  | .position => toString e.position
  | .kind => e.kind.name
  | .message => e.message
  | .rendered => e.render

/-- An error handler, by its description. -/
inductive Report where
  | message (parts : List MessagePart)
  /-- An error of its own, at the cursor unless a position is given. -/
  | error (kind : ErrorKind) (parts : List MessagePart) (position : Option Int)
  | raise (wording : String)
  /-- Another handler; the call is recorded. -/
  | spy (label : String) (body : Report)

namespace Report

def compose (parts : List MessagePart) (e : ParseError) (cursor : Nat) : String :=
  String.join (parts.map (MessagePart.render e cursor))

/-- What a described handler answers. -/
def apply : Report → ParseError → Nat → Response Revision
  | .message parts, e, cursor => pure (.message (compose parts e cursor))
  | .error newKind parts place, e, cursor =>
    pure (.error
      { kind := newKind, message := compose parts e cursor, position := place.getD cursor })
  | .raise wording, _, _ => Response.raise (.user wording)
  | .spy label body, e, cursor => do
    Response.call label
      (.list [.str e.kind.name, .str e.message, .int e.position, .int cursor])
    body.apply e cursor

end Report

end Descent
