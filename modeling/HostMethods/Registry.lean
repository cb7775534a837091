import HostMethods.Class.Assembly

/-!
# The registry

Guest code finds classes by name. The registry holds the classes that it can find, in the order in
which they were registered; a name is given once and for good. A class's number is its position,
so neither a number nor a name ever changes its meaning.
-/

namespace HostMethods

/-- The classes that guest code can find, in the order in which they were registered. -/
structure Registry where
  /-- The classes, by number. -/
  classes : List LoadedClass
  deriving DecidableEq

namespace Registry

/-- The registry without classes. -/
def empty : Registry := ⟨[]⟩

/-- The number of registered classes. -/
def size (r : Registry) : Nat :=
  r.classes.length

/-- The class with a number. -/
def byNumber? (r : Registry) (n : Nat) : Option LoadedClass :=
  r.classes[n]?

/-- The class with a name. -/
def byName? (r : Registry) (name : String) : Option LoadedClass :=
  r.classes.find? (·.name = name)

/-- Registers a class and gives its number; a name that is taken is refused. -/
def add (r : Registry) (c : LoadedClass) : Except Clash (Nat × Registry) :=
  if (r.byName? c.name).isSome then .error (.classes c.name)
  else .ok (r.size, ⟨r.classes ++ [c]⟩)

/-- Registers classes one after the other up to the first that is refused; those before it stay.
-/
def addAll (r : Registry) : List LoadedClass → Except Clash Unit × Registry
  | [] => (.ok (), r)
  | c :: cs =>
    match r.add c with
    | .error clash => (.error clash, r)
    | .ok (_, r) => r.addAll cs

/-- Finds a method by the name of a registered class and a selector. -/
def resolve? (r : Registry) (className : String) (s : Selector) : Option Method :=
  (r.byName? className).bind (·.info.method? s)

end Registry

end HostMethods
