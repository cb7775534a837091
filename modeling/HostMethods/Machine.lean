import HostMethods.Builtins
import HostMethods.Call.Dispatch

/-!
# The machine

Everything that lives through a run: the store, the registry, the catalog of built-in classes, and
the stacks of the threads, one of which is selected. Every step works on the selected stack and
leaves the others alone.
-/

namespace HostMethods

/-- The state of a run. -/
structure Machine where
  /-- Objects, static values, sinks and the clock. -/
  store : Store
  /-- The classes that guest code can find. -/
  registry : Registry
  /-- The built-in classes. -/
  catalog : Catalog
  /-- The operand stacks of the threads, by number. -/
  threads : Array OperandStack
  /-- The number of the selected thread. -/
  current : Nat

namespace Machine

/-- A machine with one thread. The catalog is given the sink, as the first of the store, that is
to take the standard output. -/
def new (stdout : Sink) (seed : Option UInt64) (limit : Nat) : Machine :=
  let (sink, store) := Store.empty.addSink stdout
  ⟨store, .empty, .new ⟨sink, seed⟩, #[.empty limit], 0⟩

/-- The stack of the selected thread. -/
def stack (m : Machine) : OperandStack :=
  m.threads[m.current]?.getD (.empty 0)

/-- Exchanges the stack of the selected thread. -/
def setStack (m : Machine) (s : OperandStack) : Machine :=
  { m with threads := m.threads.setIfInBounds m.current s }

/-- Adds a thread with an empty stack, and selects it. -/
def newThread (m : Machine) (limit : Nat) : Machine :=
  { m with threads := m.threads.push (.empty limit), current := m.threads.size }

/-- Selects a thread, if there is one of that number. -/
def select (m : Machine) (thread : Nat) : Machine :=
  if thread < m.threads.size then { m with current := thread } else m

/-- Runs a call on the selected thread. -/
def call (m : Machine) (run : CallState → Except CallError Unit × CallState) :
    Except CallError Unit × Machine :=
  let (outcome, c) := run ⟨m.stack, m.store⟩
  (outcome, { m.setStack c.stack with store := c.store })

/-- Asks the catalog, which may make classes to answer. -/
def askCatalog {α : Type} (m : Machine) (ask : Catalog → Store → α × Catalog × Store) :
    α × Machine :=
  let (answer, catalog, store) := ask m.catalog m.store
  (answer, { m with catalog, store })

end Machine

end HostMethods
