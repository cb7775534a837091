import HostMethods.Class.Basic

/-!
# Assembling classes

A class is put together member by member. A member whose name is taken, a field's by any other
field and a method's by a method of the same name and signature, is refused with a `Clash` and
changes nothing, so the class consists of exactly the members that were accepted.

A host can go on after a refusal (`assemble`) or give the class up (`build`).
-/

namespace HostMethods

/-- Two things that would share a name. -/
inductive Clash
  /-- Two fields of a class. -/
  | field (className name : String)
  /-- Two methods of a class. -/
  | method (className : String) (selector : Selector)
  /-- Two registered classes. -/
  | classes (name : String)
  deriving DecidableEq

/-- The clash as a sentence. -/
def Clash.message : Clash → String
  | field className name => s!"Duplicate field '{name}' in class {className}"
  | method className selector => "Duplicate method " ++ selector.text ++ " in class " ++ className
  | classes name => s!"Class {name} is already registered"

/-- A member as it is declared. -/
inductive Member
  /-- A field of the class; the static flag is added to its access flags. -/
  | static (name : String) (access : Access) (type : GuestType) (initial : Value)
  /-- A field of every instance. -/
  | field (name : String) (access : Access) (type : GuestType)
  /-- A method of the class that the host implements. -/
  | native (name : String) (access : Access) (signature : Signature) (entry : Entry)
  /-- A finished method. -/
  | method (m : Method)
  deriving DecidableEq

/-- A public method with one parameter and no result, which the host implements. -/
def Member.procedure (name : String) (param : GuestType) (entry : Entry) : Member :=
  .native name .publicFlag ⟨[param], .void⟩ entry

namespace Class

/-- Adds a finished method. -/
def addMethod (c : Class) (m : Method) : Except Clash Class :=
  if (c.method? m.selector).isSome then .error (.method c.name m.selector)
  else .ok { c with methods := c.methods ++ [m] }

/-- Adds a member. -/
def add (c : Class) : Member → Except Clash Class
  | .static name access type initial =>
    if c.hasField name then .error (.field c.name name)
    else
      let f : StaticField := ⟨⟨name, access.union .staticFlag, type⟩, initial⟩
      .ok { c with staticFields := c.staticFields ++ [f] }
  | .field name access type =>
    if c.hasField name then .error (.field c.name name)
    else .ok { c with instanceFields := c.instanceFields ++ [⟨name, access, type⟩] }
  | .native name access signature entry =>
    c.addMethod (.native c.name name access signature entry)
  | .method m => c.addMethod m

/-- Adds members one after the other and skips those that are refused; the answers come with the
class. -/
def assemble (c : Class) : List Member → Class × List (Except Clash Unit)
  | [] => (c, [])
  | m :: ms =>
    match c.add m with
    | .ok c =>
      let (c, answers) := c.assemble ms
      (c, .ok () :: answers)
    | .error clash =>
      let (c, answers) := c.assemble ms
      (c, .error clash :: answers)

/-- Adds members one after the other and gives up at the first that is refused. -/
def build (c : Class) : List Member → Except Clash Class
  | [] => .ok c
  | m :: ms =>
    match c.add m with
    | .ok c => c.build ms
    | .error clash => .error clash

end Class

end HostMethods
