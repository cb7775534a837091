import HostMethods.Call.State

/-!
# Methods of output streams

A method of a stream comes down to one of three things: it prints a text, flushes, or reports
whether anything has failed. Printing composes the whole text first, line separator included, and
hands it to the sink in one write. What goes wrong in the sink is no failure of the method: the
stream remembers it until somebody asks. An argument that should be a string is looked at after
the receiver.
-/

namespace HostMethods

/-- What a method of a stream comes down to. -/
inductive StreamAction
  /-- One write of the whole text. -/
  | print (text : String)
  /-- One flush. -/
  | flush
  /-- Pushes whether any write or flush through the stream has failed. -/
  | report
  deriving DecidableEq

namespace StreamAction

/-- The result of an action on the stream behind a reference, and the store after it. -/
def perform (s : Store) (r : Ref) (i : Instance) (stream : Stream) :
    StreamAction → Option Value × Store
  | print text => (none, s.callStream r i stream (.write text.toUTF8))
  | flush => (none, s.callStream r i stream .flush)
  | report => (some (ArgKind.boolean.write stream.hasFailed), s)

end StreamAction

namespace StreamMethod

/-- What ends a printed line. -/
def lineEnd : String := "\n"

/-- The text of a string argument; null has a text, too. -/
def textOf (s : Store) : Option Ref → Except Exception String
  | none => .ok "null"
  | some r => s.stringAt r

/-- The action that a method comes down to for its arguments. -/
def action (s : Store) : (m : StreamMethod) → Args m.arguments → Except Exception StreamAction
  | printChar, .cons c _ => .ok (.print (String.singleton c))
  | printString, .cons arg _ => (textOf s arg).map .print
  | printlnString, .cons arg _ => (textOf s arg).map fun text ↦ .print (text ++ lineEnd)
  | printlnInt, .cons i _ => .ok (.print (toString i.toInt ++ lineEnd))
  | println, _ => .ok (.print lineEnd)
  | flush, _ => .ok .flush
  | checkError, _ => .ok .report

/-- The effect of a method. -/
def effect (m : StreamMethod) (s : Store) (r : Ref) (args : Args m.arguments) :
    Except CallError (Option Value × Store) :=
  match s.stateOf r ClassName.printStream .stream with
  | .error e => .error e
  | .ok (i, stream) =>
    match action s m args with
    | .error e => .error (.raised e)
    | .ok a => .ok (a.perform s r i stream)

/-- Runs a method. -/
def run (m : StreamMethod) (c : CallState) : Except CallError Unit × CallState :=
  c.onReceiver m.arguments m.effect

end StreamMethod

end HostMethods
