import HostMethods.Call.State

/-!
# Methods of random number generators

Constructors fill the slot of their receiver with a generator, the other methods need it filled
and move the generator on, or put another one in its place. A bound is looked at after the
receiver, and before anything is drawn.
-/

namespace HostMethods

namespace RandomMethod

/-- Fills the slot of a new object with the generator that belongs to a seed. -/
def start (s : Store) (receiver : Ref) (seed : UInt64) : Except CallError Store :=
  s.initState receiver ClassName.random ⟨.generator, .ofSeed seed⟩

/-- Answers a request from the receiver's generator, which moves on. -/
def answer (s : Store) (receiver : Ref) (request : Draw) :
    Except CallError (Option Value × Store) :=
  match s.stateOf receiver ClassName.random .generator with
  | .error e => .error e
  | .ok (i, g) =>
    match g.draw request with
    | .error e => .error (.raised e)
    | .ok (v, g) => .ok (some v, s.putState receiver i .generator g)

/-- Puts the generator that belongs to a seed in the place of the receiver's. -/
def restart (s : Store) (receiver : Ref) (seed : UInt64) : Except CallError Store :=
  match s.stateOf receiver ClassName.random .generator with
  | .error e => .error e
  | .ok (i, _) => .ok (s.putState receiver i .generator (.ofSeed seed))

/-- The effect of a method. A `long` seed counts by its bits. A construction without any seed
takes the clock's, and the clock moves on if it succeeds. -/
def effect : (m : RandomMethod) → Store → Ref → Args m.arguments →
    Except CallError (Option Value × Store)
  | construct (some seed), s, r, _ => (start s r seed).map (none, ·)
  | construct none, s, r, _ =>
    (start s r s.clock).map fun s ↦ (none, { s with clock := s.clock + 1 })
  | constructSeeded, s, r, .cons seed _ => (start s r seed.toUInt64).map (none, ·)
  | nextInt, s, r, _ => answer s r .int
  | nextIntBelow, s, r, .cons bound _ => answer s r (.below bound)
  | nextLong, s, r, _ => answer s r .long
  | nextBoolean, s, r, _ => answer s r .boolean
  | setSeed, s, r, .cons seed _ => (restart s r seed.toUInt64).map (none, ·)

/-- Runs a method. -/
def run (m : RandomMethod) (c : CallState) : Except CallError Unit × CallState :=
  c.onReceiver m.arguments m.effect

end RandomMethod

end HostMethods
