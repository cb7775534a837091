import HostMethods.Machine

/-!
# Sessions

A session is a list of commands given to a machine one after the other. Every way to change a
machine is a command, whether it comes from guest code (stack operations, calls, field writes) or
from the host around it (new classes, registrations, sinks), so what holds of every list of
commands holds of every run. `Machine.step` carries out one command and gives the reply to it.
-/

namespace HostMethods

/-- One step of a session. -/
inductive Command
  /-- Pushes a value a number of times. -/
  | push (v : Value) (count : Nat)
  /-- Takes the top value. -/
  | pop
  /-- Takes the top value as a reference. -/
  | popRef
  /-- Takes the arguments of a call, without a receiver. -/
  | takeArgs (kinds : List ArgKind)
  /-- Takes the arguments of a call and its receiver. -/
  | takeCall (kinds : List ArgKind)
  /-- Reads a value as an argument, and pushes it back. -/
  | deliver (kind : ArgKind) (v : Value)
  /-- Adds a thread and selects it. -/
  | newThread (limit : Nat)
  /-- Selects a thread. -/
  | select (thread : Nat)
  /-- Makes a string. -/
  | newText (text : String)
  /-- Makes an object, with state behind it or without. -/
  | newInstance (c : LoadedClass) (state : Option HostState)
  /-- Makes a stream. -/
  | openStream (c : LoadedClass) (sink : Nat)
  /-- Writes a field of an object. -/
  | setField (r : Ref) (name : String) (v : Value)
  /-- Fills the slot of an object. -/
  | initState (r : Ref) (state : HostState)
  /-- Writes a static field. -/
  | setStatic (c : LoadedClass) (name : String) (v : Value)
  /-- Makes a class. -/
  | define (name : String) (members : List Member)
  /-- Makes a class of output streams that no catalog knows. -/
  | buildPrintStream
  /-- Makes a class of random number generators that no catalog knows. -/
  | buildRandom (seed : Option UInt64)
  /-- Makes a class with a standard output stream that no catalog knows. -/
  | buildSystem (streams : LoadedClass) (sink : Nat)
  /-- Asks for a built-in class. -/
  | builtin (b : Builtin)
  /-- Asks for all built-in classes. -/
  | builtins
  /-- Registers all built-in classes. -/
  | registerBuiltins
  /-- Registers a class. -/
  | register (c : LoadedClass)
  /-- Registers several classes. -/
  | registerMany (cs : List LoadedClass)
  /-- Calls a method of a class. -/
  | call (c : LoadedClass) (s : Selector)
  /-- Calls a method of a registered class. -/
  | invoke (className : String) (s : Selector)
  /-- Adds a sink. -/
  | newSink (k : Sink)
  /-- Asks something of a sink. -/
  | callSink (sink : Nat) (call : SinkCall)
  /-- Takes the bytes that a sink kept. -/
  | takeSink (sink : Nat)
  /-- Asks something of a stream's sink. -/
  | callStream (r : Ref) (call : SinkCall)

/-- What comes back from a step. -/
inductive Reply
  | done
  /-- There is no such method. -/
  | absent
  /-- The object is a string. -/
  | notInstance
  | value (v : Value)
  /-- A reference, or null. -/
  | reference (r : Option Ref)
  /-- A new object. -/
  | created (r : Ref)
  /-- The number of a class, a thread or a sink. -/
  | number (n : Nat)
  | loaded (c : LoadedClass)
  | loadedAll (cs : List LoadedClass)
  /-- A new class, with an answer for each declared member. -/
  | assembled (c : LoadedClass) (answers : List (Except Clash Unit))
  /-- The arguments of a call, with its receiver if there is one. -/
  | arguments (receiver : Option Ref) {kinds : List ArgKind} (args : Args kinds)
  | bytes (b : ByteArray)
  | stackFault (fault : StackFault)
  /-- A value that was to be pushed several times fitted only so many times. -/
  | pushFault (fault : StackFault) (pushed : Nat)
  | callError (e : CallError)
  | clash (c : Clash)
  | fieldFault (f : FieldFault)
  | sinkFault (text : String)

namespace Reply

/-- The reply to a call. -/
def ofCall : Except CallError Unit → Reply
  | .ok () => done
  | .error e => callError e

/-- The reply to a registration. -/
def ofRegistration : Except Clash Unit → Reply
  | .ok () => done
  | .error c => clash c

/-- The reply to a question for a class. -/
def ofClass : Except Clash LoadedClass → Reply
  | .ok c => loaded c
  | .error e => clash e

end Reply

namespace Machine

/-- Makes an object. -/
def create (m : Machine) (make : Store → Ref × Store) : Machine × Reply :=
  let (r, store) := make m.store
  ({ m with store }, .created r)

/-- Makes a class. -/
def make (m : Machine) : Except Clash (LoadedClass × Store) → Machine × Reply
  | .ok (c, store) => ({ m with store }, .loaded c)
  | .error e => (m, .clash e)

/-- Carries out one command. -/
def step (m : Machine) : Command → Machine × Reply
  | .push v count =>
    match m.stack.pushMany v count with
    | (.ok (), s) => (m.setStack s, .done)
    | (.error (fault, pushed), s) => (m.setStack s, .pushFault fault pushed)
  | .pop =>
    match m.stack.pop with
    | .ok (v, s) => (m.setStack s, .value v)
    | .error fault => (m, .stackFault fault)
  | .popRef =>
    match m.stack.popRef with
    | (.ok r, s) => (m.setStack s, .reference r)
    | (.error fault, s) => (m.setStack s, .stackFault fault)
  | .takeArgs kinds =>
    match m.stack.takeArgs kinds with
    | (.ok args, s) => (m.setStack s, .arguments none args)
    | (.error e, s) => (m.setStack s, .callError e)
  | .takeCall kinds =>
    match m.stack.takeCall kinds with
    | (.ok (r, args), s) => (m.setStack s, .arguments (some r) args)
    | (.error e, s) => (m.setStack s, .callError e)
  | .deliver kind v =>
    match kind.read v with
    | .error e => (m, .callError (.raised e))
    | .ok a =>
      let (outcome, s) := m.stack.deliver (kind.write a)
      (m.setStack s, .ofCall outcome)
  | .newThread limit => (m.newThread limit, .number m.threads.size)
  | .select thread => (m.select thread, .done)
  | .newText text => m.create (·.newText text)
  | .newInstance c state => m.create (·.newInstance c state)
  | .openStream c sink => m.create (·.openStream c sink)
  | .setField r name v =>
    match m.store.instance? r with
    | none => (m, .notInstance)
    | some i =>
      match i.setField name v with
      | .error fault => (m, .fieldFault fault)
      | .ok i => ({ m with store := m.store.putInstance r i }, .done)
  | .initState r state =>
    match m.store.instance? r with
    | none => (m, .notInstance)
    | some i =>
      match i.initState state with
      | .error e => (m, .callError e)
      | .ok i => ({ m with store := m.store.putInstance r i }, .done)
  | .setStatic c name v =>
    match m.store.setStatic c name v with
    | .error fault => (m, .fieldFault fault)
    | .ok store => ({ m with store }, .done)
  | .define name members =>
    let (c, answers) := (Class.empty name).assemble members
    let (c, store) := m.store.load c
    ({ m with store }, .assembled c answers)
  | .buildPrintStream => m.make m.store.loadPrintStream
  | .buildRandom seed => m.make (m.store.loadRandom seed)
  | .buildSystem streams sink => m.make (m.store.loadSystem streams sink)
  | .builtin b =>
    let (answer, m) := m.askCatalog fun k s ↦ k.get s b
    (m, .ofClass answer)
  | .builtins =>
    match m.askCatalog Catalog.classes with
    | (.ok cs, m) => (m, .loadedAll cs)
    | (.error e, m) => (m, .clash e)
  | .registerBuiltins =>
    let (outcome, registry, catalog, store) := m.catalog.publish m.store m.registry
    ({ m with registry, catalog, store }, .ofRegistration outcome)
  | .register c =>
    match m.registry.add c with
    | .error e => (m, .clash e)
    | .ok (n, registry) => ({ m with registry }, .number n)
  | .registerMany cs =>
    let (outcome, registry) := m.registry.addAll cs
    ({ m with registry }, .ofRegistration outcome)
  | .call c s =>
    match c.info.method? s with
    | none => (m, .absent)
    | some method =>
      let (outcome, m) := m.call method.call
      (m, .ofCall outcome)
  | .invoke className s =>
    let (outcome, m) := m.call (m.registry.call className s)
    (m, .ofCall outcome)
  | .newSink k =>
    let (n, store) := m.store.addSink k
    ({ m with store }, .number n)
  | .callSink sink call =>
    let (outcome, store) := m.store.callSink sink call
    ({ m with store },
      match outcome with
      | .ok () => .done
      | .error text => .sinkFault text)
  | .takeSink sink =>
    let (bytes, store) := m.store.takeSink sink
    ({ m with store }, .bytes bytes)
  | .callStream r call =>
    match m.store.instance? r with
    | none => (m, .notInstance)
    | some i =>
      match i.stateAs .stream with
      | .error e => (m, .callError e)
      | .ok stream => ({ m with store := m.store.callStream r i stream call }, .done)

/-- Carries out commands one after the other. -/
def run (m : Machine) : List Command → Machine × List Reply
  | [] => (m, [])
  | c :: cs =>
    let (m, reply) := m.step c
    let (m, replies) := m.run cs
    (m, reply :: replies)

end Machine

end HostMethods
