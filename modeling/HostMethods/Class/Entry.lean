import HostMethods.Argument

/-!
# Entry points of host methods

A method that the host implements is known to its class by an entry point, which is data: which
method it is, and what was fixed when the class was built. What an entry point does is said in
`HostMethods.Call`, where objects and sinks are known; here stand only the parts that a class
declares or that a caller relies on, the name, the signature, and the arguments that the entry
point takes from the stack. The last two are independent of each other: a signature promises, the
argument kinds are what the method asks for.

The methods of the built-in classes are listed completely. A host can bring further ones
(`HostAction`), which are enough to push results, to fail, to hand arguments back and to keep a
number behind an object.
-/

namespace HostMethods

/-! ### Names of the built-in classes -/

/-- The guest's class of strings. -/
def ClassName.string : String := "java/lang/String"

/-- The guest's class of random number generators. -/
def ClassName.random : String := "java/util/Random"

/-- The guest's class of output streams. -/
def ClassName.printStream : String := "java/io/PrintStream"

/-- The guest's class that holds the standard output stream. -/
def ClassName.system : String := "java/lang/System"

/-- The name under which the guest knows a constructor. -/
def constructorName : String := "<init>"

/-! ### Methods of random number generators -/

/-- The methods of a random number generator. -/
inductive RandomMethod
  /-- Construction from a seed fixed beforehand, or from the clock. -/
  | construct (seed : Option UInt64)
  /-- Construction from a seed that the guest gives. -/
  | constructSeeded
  | nextInt
  /-- A number below a bound that the guest gives. -/
  | nextIntBelow
  | nextLong
  | nextBoolean
  /-- A new start from a seed that the guest gives. -/
  | setSeed
  deriving DecidableEq

namespace RandomMethod

/-- All methods of the class, in declaration order. -/
def all (seed : Option UInt64) : List RandomMethod :=
  [construct seed, constructSeeded, nextInt, nextIntBelow, nextLong, nextBoolean, setSeed]

/-- The name that the guest calls. -/
def name : RandomMethod → String
  | construct _ | constructSeeded => constructorName
  | nextInt | nextIntBelow => "nextInt"
  | nextLong => "nextLong"
  | nextBoolean => "nextBoolean"
  | setSeed => "setSeed"

/-- The declared signature. -/
def signature : RandomMethod → Signature
  | construct _ => ⟨[], .void⟩
  | constructSeeded => ⟨[.long], .void⟩
  | nextInt => ⟨[], .int⟩
  | nextIntBelow => ⟨[.int], .int⟩
  | nextLong => ⟨[], .long⟩
  | nextBoolean => ⟨[], .boolean⟩
  | setSeed => ⟨[.long], .void⟩

/-- The arguments that the method takes from the stack. -/
@[reducible]
def arguments : RandomMethod → List ArgKind
  | construct _ | nextInt | nextLong | nextBoolean => []
  | constructSeeded | setSeed => [.long]
  | nextIntBelow => [.int]

end RandomMethod

/-! ### Methods of output streams -/

/-- The methods of an output stream. -/
inductive StreamMethod
  | printChar
  | printString
  | printlnString
  | printlnInt
  | println
  | flush
  | checkError
  deriving DecidableEq

namespace StreamMethod

/-- All methods of the class, in declaration order. -/
def all : List StreamMethod :=
  [printChar, printString, printlnString, printlnInt, println, flush, checkError]

/-- The name that the guest calls. -/
def name : StreamMethod → String
  | printChar | printString => "print"
  | printlnString | printlnInt | println => "println"
  | flush => "flush"
  | checkError => "checkError"

/-- The declared signature. -/
def signature : StreamMethod → Signature
  | printChar => ⟨[.char], .void⟩
  | printString | printlnString => ⟨[.object ClassName.string], .void⟩
  | printlnInt => ⟨[.int], .void⟩
  | println | flush => ⟨[], .void⟩
  | checkError => ⟨[], .boolean⟩

/-- The arguments that the method takes from the stack. -/
@[reducible]
def arguments : StreamMethod → List ArgKind
  | printChar => [.char]
  | printString | printlnString => [.nullable]
  | printlnInt => [.int]
  | println | flush | checkError => []

end StreamMethod

/-! ### Methods that a host brings along -/

/-- What a method does with the number that the host keeps behind an object. -/
inductive CellMethod
  /-- Puts a zero behind an object that has no state yet. -/
  | start
  /-- Adds an argument, with wraparound. -/
  | add
  /-- Pushes the number. -/
  | read
  deriving DecidableEq

/-- The arguments that the method takes from the stack. -/
@[reducible]
def CellMethod.arguments : CellMethod → List ArgKind
  | start | read => []
  | add => [.long]

/-- What a method that a host brings along does. -/
inductive HostAction
  /-- Nothing. -/
  | noop
  /-- Pushes a value. -/
  | push (v : Value)
  /-- Fails. -/
  | fail (e : CallError)
  /-- Takes arguments, with a receiver or without, and pushes them back in declaration order. -/
  | echo (receiver : Bool) (kinds : List ArgKind)
  /-- Works on the number that the host keeps, as state of some kind, behind objects of a class. -/
  | cell (className : String) (kind : String) (method : CellMethod)
  deriving DecidableEq

/-- Where a call of a host method enters. -/
inductive Entry
  | random (method : RandomMethod)
  | stream (method : StreamMethod)
  | host (action : HostAction)
  deriving DecidableEq

end HostMethods
