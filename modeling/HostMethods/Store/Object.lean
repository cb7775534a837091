import HostMethods.Class.Basic
import HostMethods.Generator.Basic

/-!
# Objects

An object is a string or an instance of a class. An instance has its fields and one slot for state
that the host keeps behind it. The slot is filled once, when the object is made or when a
constructor runs, and what fills it is never exchanged for state of another kind.

State is a kind together with a content of that kind (`HostState`), so whoever asks for a kind
gets content of the right type or the violation that names both kinds.
-/

namespace HostMethods

/-- The state of an output stream. -/
structure Stream where
  /-- The sink that the stream writes to. -/
  sink : Nat
  /-- The text of the latest failure of a write or flush through this stream. -/
  lastError : Option String
  deriving DecidableEq

/-- The state of a stream that has not failed yet. -/
def Stream.to (sink : Nat) : Stream :=
  ⟨sink, none⟩

/-- Whether any write or flush through the stream has failed. -/
def Stream.hasFailed (s : Stream) : Bool :=
  s.lastError.isSome

/-- What state of a kind holds. -/
abbrev StateKind.Content : StateKind → Type
  | generator => Generator
  | stream => Stream
  | custom _ => Int64

/-- State that the host keeps behind an object. -/
structure HostState where
  /-- The kind of the state. -/
  kind : StateKind
  /-- The state. -/
  content : kind.Content

/-- The content, if the state is of the given kind. -/
def HostState.as? (s : HostState) (k : StateKind) : Option k.Content :=
  if h : s.kind = k then some (h ▸ s.content) else none

@[simp]
theorem HostState.as?_mk (k : StateKind) (content : k.Content) :
    (HostState.mk k content).as? k = some content := by
  simp [as?]

theorem HostState.as?_eq_none_iff {s : HostState} {k : StateKind} :
    s.as? k = none ↔ s.kind ≠ k := by
  simp [as?]

/-- An object of a class. -/
structure Instance where
  /-- The object's class. -/
  cls : LoadedClass
  /-- The values of its fields, in storage order. -/
  fields : List Value
  /-- The slot for the host's state. -/
  state : Option HostState

namespace Instance

/-- A new object: every field holds the default value of its type, and the slot is empty. -/
def fresh (c : LoadedClass) : Instance :=
  ⟨c, c.info.initialFields, none⟩

/-- Whether the slot is filled. -/
def hasState (i : Instance) : Bool :=
  i.state.isSome

/-- Reads a field. -/
def field? (i : Instance) (name : String) : Option Value :=
  i.cls.info.readField i.fields name

/-- Writes a field. -/
def setField (i : Instance) (name : String) (v : Value) : Except FieldFault Instance :=
  (i.cls.info.writeField i.fields name v).map fun fields ↦ { i with fields }

/-- Fills the slot, if it is empty. -/
def initState (i : Instance) (s : HostState) : Except CallError Instance :=
  match i.state with
  | some _ => .error (.violated (.slotTaken i.cls.name))
  | none => .ok { i with state := some s }

/-- The content of the slot as state of a kind. -/
def stateAs (i : Instance) (k : StateKind) : Except CallError k.Content :=
  match i.state with
  | none =>
    .error (.raised (.nullUse (i.cls.name ++ " instance used before its constructor ran")))
  | some s =>
    match s.as? k with
    | some content => .ok content
    | none => .error (.violated (.wrongState i.cls.name k s.kind))

/-- The object for diagnostics. -/
def describe (showRef : Ref → String) (i : Instance) : String :=
  Text.record "ClassInstance"
    [("class", Text.quoted i.cls.name),
      ("fields", Text.bracketed (i.fields.map (Value.describe showRef))),
      ("native", Text.optional (i.state.map fun s ↦ Text.quoted s.kind.name))]

end Instance

/-- What a reference leads to. -/
inductive Object
  | text (s : String)
  | inst (i : Instance)

namespace Object

/-- The name of the object's class. -/
def className : Object → String
  | text _ => ClassName.string
  | inst i => i.cls.name

/-- The object as an instance. -/
def instance? : Object → Option Instance
  | text _ => none
  | inst i => some i

/-- The object as a string. -/
def text? : Object → Option String
  | text s => some s
  | inst _ => none

/-- The object for diagnostics. -/
def describe (showRef : Ref → String) : Object → String
  | text s => "String(" ++ Text.record "GuestString" [("value", Text.quoted s)] ++ ")"
  | inst i => "Instance(" ++ i.describe showRef ++ ")"

end Object

end HostMethods
