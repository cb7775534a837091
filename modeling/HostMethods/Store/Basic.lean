import HostMethods.Sink
import HostMethods.Store.Object

/-!
# The store

The store is everything that calls can change besides the stacks: the objects, the values of
static fields, the sinks, and the clock that seeds generators nobody gave a seed. Objects, classes
and sinks are only ever added, each at the end, so an address once given out keeps its meaning.

Reading an address that was never given out yields an empty string object, an empty list of static
values, or nothing. Only the store makes references and identities, so no run ever asks for one.
-/

namespace HostMethods

/-- Objects, static values, sinks and the clock. -/
structure Store where
  /-- The objects, by address. -/
  objects : Array Object
  /-- The values of static fields, by the identity of their class. -/
  statics : Array (List Value)
  /-- The sinks, in the order in which they were added. -/
  sinks : Array Sink
  /-- The seed for the next generator that nobody gave a seed. -/
  clock : UInt64

namespace Store

/-- A store that holds nothing. -/
def empty : Store :=
  ⟨#[], #[], #[], 0⟩

/-! ### Classes -/

/-- Gives a class an identity, and its static fields their initial values. -/
def load (s : Store) (c : Class) : LoadedClass × Store :=
  (⟨s.statics.size, c⟩, { s with statics := s.statics.push c.initialStatics })

/-- The values of a class's static fields, in storage order. -/
def staticsOf (s : Store) (c : LoadedClass) : List Value :=
  s.statics[c.id]?.getD []

/-- Reads a static field by name. -/
def static? (s : Store) (c : LoadedClass) (name : String) : Option Value :=
  c.info.readStatic (s.staticsOf c) name

/-- Reads a static field by its storage index. -/
def staticAt? (s : Store) (c : LoadedClass) (index : Nat) : Option Value :=
  (s.staticsOf c)[index]?

/-- Writes a static field. -/
def setStatic (s : Store) (c : LoadedClass) (name : String) (v : Value) : Except FieldFault Store :=
  (c.info.writeStatic (s.staticsOf c) name v).map fun values ↦
    { s with statics := s.statics.setIfInBounds c.id values }

/-! ### Objects -/

/-- Adds an object. -/
def allocate (s : Store) (o : Object) : Ref × Store :=
  (⟨s.objects.size⟩, { s with objects := s.objects.push o })

/-- Adds a string. -/
def newText (s : Store) (text : String) : Ref × Store :=
  s.allocate (.text text)

/-- Adds an object of a class, with state in its slot or with none. -/
def newInstance (s : Store) (c : LoadedClass) (state : Option HostState) : Ref × Store :=
  s.allocate (.inst { Instance.fresh c with state })

/-- Adds a stream that writes to a sink. -/
def openStream (s : Store) (c : LoadedClass) (sink : Nat) : Ref × Store :=
  s.newInstance c (some ⟨.stream, .to sink⟩)

/-- What a reference leads to. -/
def object (s : Store) (r : Ref) : Object :=
  s.objects[r.address]?.getD (.text "")

/-- The instance behind a reference. -/
def instance? (s : Store) (r : Ref) : Option Instance :=
  (s.object r).instance?

/-- Exchanges the instance behind a reference. -/
def putInstance (s : Store) (r : Ref) (i : Instance) : Store :=
  { s with objects := s.objects.setIfInBounds r.address (.inst i) }

/-- Adding an object changes what its own reference leads to, and nothing else. -/
theorem object_allocate (s : Store) (o : Object) (r : Ref) :
    (s.allocate o).2.object r = if r = (s.allocate o).1 then o else s.object r := by
  obtain ⟨a⟩ := r
  simp only [allocate, object, Array.getElem?_push, Ref.mk.injEq]
  split <;> simp_all

/-- A reference to an instance leads to the instance put in its place. -/
theorem object_putInstance_self {s : Store} {r : Ref} {i j : Instance} (h : s.object r = .inst j) :
    (s.putInstance r i).object r = .inst i := by
  have hlt : r.address < s.objects.size := by
    rcases Nat.lt_or_ge r.address s.objects.size with hlt | hge
    · exact hlt
    · simp [object, Array.getElem?_eq_none hge] at h
  simp [putInstance, object, hlt]

/-- No other reference notices the exchange. -/
theorem object_putInstance_of_ne {s : Store} {r q : Ref} {i : Instance} (h : q ≠ r) :
    (s.putInstance r i).object q = s.object q := by
  have hne : r.address ≠ q.address := by
    rintro heq
    exact h (by cases r; cases q; simp_all)
  simp [putInstance, object, hne]

/-- The instance behind a reference, which must be of the class named. -/
def instanceOf (s : Store) (r : Ref) (className : String) : Except Exception Instance :=
  match s.object r with
  | .inst i => if i.cls.name = className then .ok i else .error (.wrongType className i.cls.name)
  | .text _ => .error (.wrongType className ClassName.string)

/-- The text behind a reference, which must be a string. -/
def stringAt (s : Store) (r : Ref) : Except Exception String :=
  match s.object r with
  | .text text => .ok text
  | .inst i => .error (.wrongType ClassName.string i.cls.name)

/-- A reference for diagnostics; `number` stands for the address. -/
def describeRef (s : Store) (number : Ref → Nat) (r : Ref) : String :=
  (s.object r).className ++ "@#" ++ toString (number r)

/-! ### Sinks and streams -/

/-- Adds a sink. -/
def addSink (s : Store) (k : Sink) : Nat × Store :=
  (s.sinks.size, { s with sinks := s.sinks.push k })

/-- Asks something of a sink. -/
def callSink (s : Store) (sink : Nat) (call : SinkCall) : Except String Unit × Store :=
  match s.sinks[sink]? with
  | none => (.ok (), s)
  | some k =>
    let (outcome, k) := k.perform call
    (outcome, { s with sinks := s.sinks.setIfInBounds sink k })

/-- Takes the bytes that a sink kept. -/
def takeSink (s : Store) (sink : Nat) : ByteArray × Store :=
  match s.sinks[sink]? with
  | none => (ByteArray.empty, s)
  | some k =>
    let (bytes, k) := k.take
    (bytes, { s with sinks := s.sinks.setIfInBounds sink k })

/-- Asks something of a stream's sink. A failure is remembered in the stream, in the place of any
earlier one, and is not passed on. -/
def callStream (s : Store) (r : Ref) (i : Instance) (stream : Stream) (call : SinkCall) : Store :=
  match s.callSink stream.sink call with
  | (.ok (), s) => s
  | (.error text, s) =>
    s.putInstance r { i with state := some ⟨.stream, { stream with lastError := some text }⟩ }

/-- The stream for diagnostics. -/
def describeStream (s : Store) (stream : Stream) : String :=
  let name := (s.sinks[stream.sink]?.map (·.name)).getD ""
  Text.record "PrintStreamState"
    [("sink", Text.quoted name), ("last_error", Text.optional (stream.lastError.map Text.quoted))]

/-! ### State behind objects -/

/-- Fills the slot of an object, which must be of the class named. -/
def initState (s : Store) (r : Ref) (className : String) (state : HostState) :
    Except CallError Store :=
  match s.instanceOf r className with
  | .error e => .error (.raised e)
  | .ok i => (i.initState state).map (s.putInstance r)

/-- The object and the content of its slot, which must be an object of the class named with state
of the kind named. -/
def stateOf (s : Store) (r : Ref) (className : String) (k : StateKind) :
    Except CallError (Instance × k.Content) :=
  match s.instanceOf r className with
  | .error e => .error (.raised e)
  | .ok i => (i.stateAs k).map fun content ↦ (i, content)

/-- Exchanges the content of an object's slot. -/
def putState (s : Store) (r : Ref) (i : Instance) (k : StateKind) (content : k.Content) : Store :=
  s.putInstance r { i with state := some ⟨k, content⟩ }

end Store

end HostMethods
