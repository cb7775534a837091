import HostMethods.Registry
import HostMethods.Store.Basic

/-!
# The built-in classes

Three classes come with the host: random number generators, output streams, and the class that
holds the standard output stream. A catalog makes each of them once, when it is first asked for,
and hands out the same class ever after. The class of the standard output stream is the catalog's
own class of streams, so asking for the one makes the other, too.
-/

namespace HostMethods

/-! ### Members -/

/-- The members of the class of random number generators. -/
def RandomMethod.members (seed : Option UInt64) : List Member :=
  (all seed).map fun m ↦ .native m.name .publicFlag m.signature (.random m)

/-- The members of the class of output streams. -/
def StreamMethod.members : List Member :=
  all.map fun m ↦ .native m.name .publicFlag m.signature (.stream m)

/-- The name of the field that holds the standard output stream. -/
def standardOutput : String := "out"

/-- Makes a class of random number generators. -/
def Store.loadRandom (s : Store) (seed : Option UInt64) : Except Clash (LoadedClass × Store) :=
  ((Class.empty ClassName.random).build (RandomMethod.members seed)).map s.load

/-- Makes a class of output streams. -/
def Store.loadPrintStream (s : Store) : Except Clash (LoadedClass × Store) :=
  ((Class.empty ClassName.printStream).build StreamMethod.members).map s.load

/-- Makes a class that holds, in a public constant, a stream of the class given that writes to the
sink given. -/
def Store.loadSystem (s : Store) (streams : LoadedClass) (stdout : Nat) :
    Except Clash (LoadedClass × Store) :=
  let (out, s) := s.openStream streams stdout
  let members := [.static standardOutput .publicConstant (.object ClassName.printStream) (.ref out)]
  ((Class.empty ClassName.system).build members).map s.load

/-! ### The catalog -/

/-- What the built-in classes are made with. -/
structure Options where
  /-- The sink behind the standard output stream. -/
  stdout : Nat
  /-- The seed of every generator that the guest gives none; without it the clock's is used. -/
  seed : Option UInt64
  deriving DecidableEq

/-- The options for diagnostics. -/
def Options.describe (s : Store) (o : Options) : String :=
  let name := (s.sinks[o.stdout]?.map (·.name)).getD ""
  Text.record "StdlibOptions"
    [("stdout", Text.quoted name), ("random_seed", Text.optional (o.seed.map (toString ·.toNat)))]

/-- The built-in classes. -/
inductive Builtin
  | system
  | random
  | printStream
  deriving DecidableEq

/-- The built-in classes made so far. -/
structure Catalog where
  /-- What the classes are made with. -/
  options : Options
  /-- The class that holds the standard output stream. -/
  system : Option LoadedClass
  /-- The class of random number generators. -/
  random : Option LoadedClass
  /-- The class of output streams. -/
  printStream : Option LoadedClass
  deriving DecidableEq

namespace Catalog

/-- A catalog that has made nothing yet. -/
def new (options : Options) : Catalog :=
  ⟨options, none, none, none⟩

/-- The class of output streams. -/
def getPrintStream (k : Catalog) (s : Store) : Except Clash LoadedClass × Catalog × Store :=
  match k.printStream with
  | some c => (.ok c, k, s)
  | none =>
    match s.loadPrintStream with
    | .error clash => (.error clash, k, s)
    | .ok (c, s) => (.ok c, { k with printStream := some c }, s)

/-- The class of random number generators. -/
def getRandom (k : Catalog) (s : Store) : Except Clash LoadedClass × Catalog × Store :=
  match k.random with
  | some c => (.ok c, k, s)
  | none =>
    match s.loadRandom k.options.seed with
    | .error clash => (.error clash, k, s)
    | .ok (c, s) => (.ok c, { k with random := some c }, s)

/-- The class that holds the standard output stream. -/
def getSystem (k : Catalog) (s : Store) : Except Clash LoadedClass × Catalog × Store :=
  match k.system with
  | some c => (.ok c, k, s)
  | none =>
    match k.getPrintStream s with
    | (.error clash, k, s) => (.error clash, k, s)
    | (.ok streams, k, s) =>
      match s.loadSystem streams k.options.stdout with
      | .error clash => (.error clash, k, s)
      | .ok (c, s) => (.ok c, { k with system := some c }, s)

/-- A built-in class. -/
def get (k : Catalog) (s : Store) : Builtin → Except Clash LoadedClass × Catalog × Store
  | .system => k.getSystem s
  | .random => k.getRandom s
  | .printStream => k.getPrintStream s

/-- The built-in classes named, up to the first that cannot be made. -/
def getAll (k : Catalog) (s : Store) :
    List Builtin → Except Clash (List LoadedClass) × Catalog × Store
  | [] => (.ok [], k, s)
  | b :: bs =>
    match k.get s b with
    | (.error clash, k, s) => (.error clash, k, s)
    | (.ok c, k, s) =>
      let (rest, k, s) := k.getAll s bs
      (rest.map (c :: ·), k, s)

/-- All built-in classes, in the order in which they are registered. -/
def classes (k : Catalog) (s : Store) : Except Clash (List LoadedClass) × Catalog × Store :=
  k.getAll s [.system, .random, .printStream]

/-- Registers all built-in classes. -/
def publish (k : Catalog) (s : Store) (r : Registry) :
    Except Clash Unit × Registry × Catalog × Store :=
  match k.classes s with
  | (.error clash, k, s) => (.error clash, r, k, s)
  | (.ok cs, k, s) =>
    let (outcome, r) := r.addAll cs
    (outcome, r, k, s)

end Catalog

end HostMethods
