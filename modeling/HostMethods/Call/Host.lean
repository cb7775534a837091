import HostMethods.Call.State

/-!
# Methods that a host brings along

The simplest methods a host can give to a class of its own. They obey the same rules as the
built-in ones: arguments come off the stack before anything else happens, and a number behind an
object is reached only through an object of the class that the method belongs to.
-/

namespace HostMethods

namespace CellMethod

/-- The effect of a method on the number that the host keeps, as state of the kind named, behind
objects of the class named. -/
def effect (className kind : String) : (m : CellMethod) → Store → Ref → Args m.arguments →
    Except CallError (Option Value × Store)
  | start, s, r, _ => (s.initState r className ⟨.custom kind, (0 : Int64)⟩).map (none, ·)
  | add, s, r, .cons n _ =>
    (s.stateOf r className (.custom kind)).map fun (i, m) ↦
      (none, s.putState r i (.custom kind) (m + n : Int64))
  | read, s, r, _ =>
    (s.stateOf r className (.custom kind)).map fun (_, n) ↦ (some (.long n), s)

end CellMethod

namespace HostAction

/-- Runs an action. -/
def run : HostAction → CallState → Except CallError Unit × CallState
  | noop, c => (.ok (), c)
  | push v, c => c.onStack (·.deliver v)
  | fail e, c => (.error e, c)
  | echo false kinds, c =>
    c.onStack fun stack ↦
      match stack.takeArgs kinds with
      | (.error e, stack) => (.error e, stack)
      | (.ok args, stack) => stack.deliverAll args.values
  | echo true kinds, c =>
    c.onStack fun stack ↦
      match stack.takeCall kinds with
      | (.error e, stack) => (.error e, stack)
      | (.ok (receiver, args), stack) => stack.deliverAll (.ref receiver :: args.values)
  | cell className kind m, c => c.onReceiver m.arguments (m.effect className kind)

end HostAction

end HostMethods
