import HostMethods.Text.Quoted
import HostMethods.Text.Utf8

/-!
# Sinks

Streams write into sinks. A sink sees calls, each either a write of some bytes at once or a flush,
and each call may fail with a text. Whether one fails may depend on everything that was asked of
the sink before, so a sink carries its whole history and its behaviour is a function of it. The
bytes of the writes that succeeded are kept, until somebody takes them.
-/

namespace HostMethods

/-- One call of a sink. -/
inductive SinkCall
  /-- A write of some bytes at once, perhaps of none. -/
  | write (bytes : ByteArray)
  | flush

/-- A destination of bytes. -/
structure Sink where
  /-- The name in diagnostics. -/
  name : String
  /-- Whether a call fails, and with which text, after the calls that came before it. -/
  failure : List SinkCall → SinkCall → Option String
  /-- The calls so far, the latest first. -/
  history : List SinkCall
  /-- The bytes written and not yet taken. -/
  kept : ByteArray

namespace Sink

/-- A new sink with a name and a behaviour. -/
def new (name : String) (failure : List SinkCall → SinkCall → Option String) : Sink :=
  ⟨name, failure, [], ByteArray.empty⟩

/-- A sink that never fails, with a name. -/
def reliable (name : String) : Sink :=
  new name fun _ _ ↦ none

/-- A sink that captures what is written to it. -/
def capture : Sink :=
  reliable "capture"

/-- The sink of the process's standard output. -/
def stdout : Sink :=
  reliable "stdout"

/-- A sink whose writes fail from some call on and whose flushes fail always or never. Calls are
numbered from zero, writes and flushes together. -/
def flaky (failFrom : Option Nat) (failFlush : Bool) : Sink :=
  new "flaky" fun earlier call ↦
    let number := earlier.length
    match call with
    | .write _ => if failFrom.any (· ≤ number) then some s!"write {number} failed" else none
    | .flush => if failFlush then some s!"flush {number} failed" else none

/-- Asks something of the sink. A call that fails is part of the history and keeps nothing. -/
def perform (s : Sink) (call : SinkCall) : Except String Unit × Sink :=
  let noted := { s with history := call :: s.history }
  match s.failure s.history call with
  | some text => (.error text, noted)
  | none =>
    match call with
    | .write bytes => (.ok (), { noted with kept := s.kept ++ bytes })
    | .flush => (.ok (), noted)

/-- Takes the bytes that were kept. -/
def take (s : Sink) : ByteArray × Sink :=
  (s.kept, { s with kept := ByteArray.empty })

/-- The kept bytes as text. -/
def text (s : Sink) : String :=
  Text.ofUtf8 s.kept

/-- The sink for diagnostics. -/
def describe (s : Sink) : String :=
  Text.record "CaptureSink" [("len", toString s.kept.size)]

end Sink

end HostMethods
