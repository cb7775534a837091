import HostMethods.Call.Host
import HostMethods.Call.Random
import HostMethods.Call.Stream
import HostMethods.Registry

/-!
# Dispatch

A call goes from a class name and a selector to a method, and from the method to its entry point.
If either step fails, nothing has been touched.
-/

namespace HostMethods

/-- Runs the method that an entry point stands for. -/
def Entry.run : Entry → CallState → Except CallError Unit × CallState
  | random m, c => m.run c
  | stream m, c => m.run c
  | host a, c => a.run c

/-- Calls a method; only methods that the host implements can be called. -/
def Method.call (m : Method) (c : CallState) : Except CallError Unit × CallState :=
  match m.body with
  | .native entry => entry.run c
  | .bytecode _ => (.error (.violated (.noEntryPoint m.selector)), c)

/-- Calls the method that a registered class has under a selector. -/
def Registry.call (r : Registry) (className : String) (s : Selector) (c : CallState) :
    Except CallError Unit × CallState :=
  match r.resolve? className s with
  | none => (.error (.violated (.unknownMethod className s)), c)
  | some m => m.call c

end HostMethods
