import HostMethods.Access
import HostMethods.Class.Entry

/-!
# Classes

A class is a name, its static fields, its instance fields and its methods, each in the order in
which they were declared. Everything else is read off these lists: a field's storage index is its
position in the list it belongs to, so no table of indices can fall out of step with it. The
values of static fields change while a program runs and so are not part of the class, only their
initial values are (`HostMethods.Store` holds the current ones).

Which of the two stores a name leads to is decided by the access flags of the field alone. The
flags of a static field always include the static flag, those of an instance field are what its
declaration said.
-/

namespace HostMethods

/-! ### Members -/

/-- A declared field. -/
structure Field where
  /-- The field's name. -/
  name : String
  /-- The field's access flags. -/
  access : Access
  /-- The field's type. -/
  type : GuestType
  deriving DecidableEq

/-- A declared field that belongs to the class, with the value it starts from. -/
structure StaticField extends Field where
  /-- The initial value. -/
  initial : Value
  deriving DecidableEq

/-- What a class knows of a field by its name. -/
structure FieldInfo where
  /-- The field's access flags. -/
  access : Access
  /-- The field's type. -/
  type : GuestType
  /-- The field's position among the fields of its kind. -/
  index : Nat
  deriving DecidableEq

/-- The body of a method that the guest implements. -/
structure Bytecode where
  /-- The instructions. -/
  code : List UInt8
  /-- The number of local variables. -/
  localSlots : UInt16
  /-- The number of operand stack slots. -/
  stackSlots : UInt16
  deriving DecidableEq

/-- How a method is implemented. -/
inductive MethodBody
  | native (entry : Entry)
  | bytecode (code : Bytecode)
  deriving DecidableEq

/-- A declared method. -/
structure Method where
  /-- The name of the class that the method says it belongs to. -/
  className : String
  /-- The method's name. -/
  name : String
  /-- The method's types. -/
  signature : Signature
  /-- The method's access flags. -/
  access : Access
  /-- The implementation. -/
  body : MethodBody
  deriving DecidableEq

namespace Method

/-- A method that the host implements; its native flag is always set. -/
def native (className name : String) (access : Access) (signature : Signature) (entry : Entry) :
    Method :=
  ⟨className, name, signature, access.union .nativeFlag, .native entry⟩

/-- A method that the guest implements. -/
def bytecode (className name : String) (access : Access) (signature : Signature) (code : Bytecode) :
    Method :=
  ⟨className, name, signature, access, .bytecode code⟩

/-- The name and signature that calls use. -/
def selector (m : Method) : Selector :=
  .of m.name m.signature

/-- The host's implementation, if there is one. -/
def entry? (m : Method) : Option Entry :=
  match m.body with
  | .native entry => some entry
  | .bytecode _ => none

/-- Whether the host implements the method. -/
def isNative (m : Method) : Bool :=
  m.entry?.isSome

/-- Whether the method can be called at once; the guest's own methods need preparation first. -/
def isReady (m : Method) : Bool :=
  m.isNative

/-- Whether a call has no receiver. -/
def isStatic (m : Method) : Bool :=
  m.access.isStatic

/-- The number of stack slots that a caller fills: one for each parameter, and one for the
receiver if there is one. -/
def slotCount (m : Method) : Nat :=
  m.signature.params.length + if m.isStatic then 0 else 1

/-- The method for diagnostics. -/
def describe (m : Method) : String :=
  Text.record "Method"
    [("class", Text.quoted m.className), ("key", Text.quoted m.selector.text),
      ("access", m.access.describe), ("prepared", Text.truth m.isReady),
      ("native", Text.truth m.isNative)]

end Method

/-! ### Classes -/

/-- A class of the guest. -/
structure Class where
  /-- The class's name. -/
  name : String
  /-- The fields that belong to the class, in storage order. -/
  staticFields : List StaticField
  /-- The fields of every instance, in storage order. -/
  instanceFields : List Field
  /-- The methods, in declaration order. -/
  methods : List Method
  deriving DecidableEq

/-- Why a field cannot be written. -/
inductive FieldFault
  /-- The class has no static field of this name. -/
  | noStatic (name className : String)
  /-- The static field's index leads beyond the static fields of the class. -/
  | staticBeyond (index count : Nat)
  /-- The class gives its instances no field of this name. -/
  | noInstance (name className : String)
  /-- The field's index leads beyond the fields of the object. -/
  | instanceBeyond (index count : Nat)
  deriving DecidableEq

/-- The fault as a sentence. -/
def FieldFault.message : FieldFault → String
  | noStatic name className => s!"No static field '{name}' in {className}"
  | staticBeyond index count =>
    s!"Static field index {index} out of bounds (class has {count} static fields)"
  | noInstance name className => s!"No instance field '{name}' in {className}"
  | instanceBeyond index count =>
    s!"Field index {index} out of bounds (object has {count} fields)"

/-- Looks a name up in fields of one kind. -/
def Field.find? (fields : List Field) (name : String) : Option FieldInfo :=
  (fields.findIdx? (·.name = name)).bind fun index ↦
    fields[index]?.map fun f ↦ ⟨f.access, f.type, index⟩

namespace Class

/-- A class without members. -/
def empty (name : String) : Class :=
  ⟨name, [], [], []⟩

/-- Where the class comes from: every class here is made by the host. -/
def source (_ : Class) : String :=
  "<builtin>"

/-- Looks a field up by name; a name belongs to at most one field of a class. -/
def field? (c : Class) (name : String) : Option FieldInfo :=
  (Field.find? (c.staticFields.map (·.toField)) name).or (Field.find? c.instanceFields name)

/-- Whether some field, static or not, has the name. -/
def hasField (c : Class) (name : String) : Bool :=
  (c.field? name).isSome

/-- Looks a method up by name and signature. -/
def method? (c : Class) (s : Selector) : Option Method :=
  c.methods.find? (·.selector = s)

/-- The names of all methods, ordered. -/
def selectors (c : Class) : List Selector :=
  (c.methods.map Method.selector).mergeSort Selector.le

/-- The initial values of the static fields, in storage order. -/
def initialStatics (c : Class) : List Value :=
  c.staticFields.map (·.initial)

/-- The values of a new instance's fields, in storage order. -/
def initialFields (c : Class) : List Value :=
  c.instanceFields.map (·.type.initialValue)

/-! ### Reading and writing by name

The values of the static fields, and those of an instance's fields, are given as the lists in
storage order that the store keeps. -/

/-- The index of a name among the static values: the name's field must have the static flag. -/
def staticIndex? (c : Class) (name : String) : Option Nat :=
  ((c.field? name).filter (·.access.isStatic)).map (·.index)

/-- The index of a name among an instance's values: the name's field must not have the static
flag. -/
def instanceIndex? (c : Class) (name : String) : Option Nat :=
  ((c.field? name).filter (!·.access.isStatic)).map (·.index)

/-- Reads a static field. -/
def readStatic (c : Class) (statics : List Value) (name : String) : Option Value :=
  (c.staticIndex? name).bind (statics[·]?)

/-- Writes a static field. -/
def writeStatic (c : Class) (statics : List Value) (name : String) (v : Value) :
    Except FieldFault (List Value) :=
  match c.staticIndex? name with
  | none => .error (.noStatic name c.name)
  | some i =>
    if i < statics.length then .ok (statics.set i v)
    else .error (.staticBeyond i statics.length)

/-- Reads a field of an instance. -/
def readField (c : Class) (fields : List Value) (name : String) : Option Value :=
  (c.instanceIndex? name).bind (fields[·]?)

/-- Writes a field of an instance. -/
def writeField (c : Class) (fields : List Value) (name : String) (v : Value) :
    Except FieldFault (List Value) :=
  match c.instanceIndex? name with
  | none => .error (.noInstance name c.name)
  | some i =>
    if i < fields.length then .ok (fields.set i v)
    else .error (.instanceBeyond i fields.length)

/-- The class for diagnostics, its methods ordered by their texts. -/
def describe (c : Class) : String :=
  let methods := (c.methods.map (·.selector.text)).mergeSort (· ≤ ·)
  Text.record "Class"
    [("name", Text.quoted c.name), ("source", Text.quoted c.source),
      ("methods", Text.bracketed (methods.map Text.quoted)),
      ("static_fields", Text.bracketed (c.staticFields.map (Text.quoted ·.name))),
      ("instance_fields", Text.bracketed (c.instanceFields.map (Text.quoted ·.name)))]

end Class

/-- A class together with its identity. Two classes may agree in every member and still be
different classes, each with values of its own in its static fields. -/
structure LoadedClass where
  /-- The identity, which also finds the values of the static fields. -/
  id : Nat
  /-- The class. -/
  info : Class
  deriving DecidableEq

/-- The class's name. -/
def LoadedClass.name (c : LoadedClass) : String :=
  c.info.name

end HostMethods
