import HostMethods.Descriptor.Selector
import HostMethods.OperandStack

/-!
# How calls fail

A call of a host method fails in one of two ways, which never mix. An `Exception` is the guest
program's own mistake, and the guest sees it as an exception of some class. A `Violation` says
that the host broke a rule of its own: a method that is not there, a stack that does not hold the
arguments, host state of the wrong kind behind an object.
-/

namespace HostMethods

/-- The kinds of state that the host keeps behind an object. -/
inductive StateKind
  /-- A random number generator. -/
  | generator
  /-- An output stream. -/
  | stream
  /-- A kind of state that the embedding host brings along, known by its name. -/
  | custom (name : String)
  deriving DecidableEq

/-- The name of a kind of state in messages. -/
def StateKind.name : StateKind → String
  | generator => "brew_stdlib::random::RandomState"
  | stream => "brew_stdlib::print_stream::PrintStreamState"
  | custom name => name

/-- A mistake of the guest program. -/
inductive Exception
  /-- A value of one type was expected and one of another was given. -/
  | wrongType (expected actual : String)
  /-- An argument has the right type and a wrong value. -/
  | badArgument (reason : String)
  /-- Something that is not there was used. -/
  | nullUse (reason : String)
  deriving DecidableEq

/-- The guest's class of the exception. -/
def Exception.className : Exception → String
  | wrongType _ _ => "java/lang/ClassCastException"
  | badArgument _ => "java/lang/IllegalArgumentException"
  | nullUse _ => "java/lang/NullPointerException"

/-- The exception as a sentence. -/
def Exception.message : Exception → String
  | wrongType expected actual => s!"Type mismatch: expected {expected}, got {actual}"
  | badArgument reason => s!"Illegal argument: {reason}"
  | nullUse reason => s!"Null reference: {reason}"

/-- A broken rule of the host. -/
inductive Violation
  /-- The state behind an object is of another kind than the method works on. -/
  | wrongState (className : String) (expected found : StateKind)
  /-- The object has its state already. -/
  | slotTaken (className : String)
  /-- The method has no host implementation. -/
  | noEntryPoint (method : Selector)
  /-- No such class is registered, or it has no such method. -/
  | unknownMethod (className : String) (method : Selector)
  /-- The operand stack refused. -/
  | stack (fault : StackFault)
  deriving DecidableEq

/-- The violation as a sentence. -/
def Violation.message : Violation → String
  | wrongState className expected found =>
    "Native state of " ++ className ++ " instance is " ++ found.name ++ ", expected " ++
      expected.name
  | slotTaken className =>
    s!"Native state of {className} instance is already initialized"
  | noEntryPoint method => "Method " ++ method.text ++ " has no native entry point"
  | unknownMethod className method => "Cannot resolve " ++ className ++ "." ++ method.text
  | stack fault => fault.message

/-- Why a call failed. -/
inductive CallError
  /-- The guest's mistake. -/
  | raised (e : Exception)
  /-- The host's mistake. -/
  | violated (v : Violation)
  deriving DecidableEq

namespace CallError

/-- A stack fault during a call is a violation. -/
def stack (fault : StackFault) : CallError :=
  .violated (.stack fault)

/-- Whether the guest is to see the error. -/
def isRaised : CallError → Bool
  | raised _ => true
  | violated _ => false

/-- The class of the exception that the guest sees, if it sees one. -/
def thrownClass : CallError → Option String
  | raised e => some e.className
  | violated _ => none

/-- The sentence about the cause alone. -/
def reason : CallError → String
  | raised e => e.message
  | violated v => v.message

/-- The error as a sentence; a violation is announced as one. -/
def message : CallError → String
  | raised e => e.message
  | violated v => "Bridge invariant violated: " ++ v.message

end CallError

end HostMethods
