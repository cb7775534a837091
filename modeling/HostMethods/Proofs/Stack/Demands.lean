import HostMethods.Proofs.Stack.Taking
import Mathlib.Data.List.Forall2

/-!
# What a call asks of the slots that it takes

A call asks something of every slot that it takes: an argument has to be of the declared kind, and
the receiver has to be a reference, which is not null (`Demand`). Slots are taken from the top. The
first one that does not meet its demand ends the call with an error of its own, and is gone together
with all slots above it; if all slots that are there meet their demands and a demand is left, then
the stack is empty, and that is the error. `OperandStack.Refused` says just this, and
`OperandStack.firstRefusal` finds it.

`takeArgs` and `takeCall` fail in this way and in no other (`OperandStack.Examined`). Where they
succeed, they read the slots in declaration order. So they undo what a caller does who pushes the
receiver first and the arguments from left to right (`OperandStack.marshals`). The only kind that
cannot be sent there and back is `char`, of which a slot holds a single code unit.
-/

namespace HostMethods

/-! ### Demands -/

/-- What a call asks of a slot: the error with which the slot ends the call, or none if it fits. -/
abbrev Demand : Type :=
  Value → Option CallError

/-- The value is what the call asks for. -/
def Demand.Met (d : Demand) (v : Value) : Prop :=
  d v = none

namespace ArgKind

/-- Whether an argument of the kind can be read from values of this kind. -/
def accepts : ArgKind → ValueKind → Bool
  | any, _ => true
  | int, .int | boolean, .int | char, .int => true
  | long, .long | float, .float | double, .double => true
  | reference, .reference | nullable, .reference | nullable, .null => true
  | _, _ => false

/-- The complaint about a value that no argument of the kind can be read from: null is missing where
a reference must not be null, and any other value has the wrong type. -/
def complaint : ArgKind → Value → Exception
  | reference, .null => .nullUse "expected a non-null reference"
  | k, v => .wrongType k.name v.kind.name

/-- What is asked of the slot of an argument. -/
def demand (k : ArgKind) : Demand := fun v ↦
  if k.accepts v.kind then none else some (.raised (k.complaint v))

/-- **A value is read as an argument exactly if it meets the demand**, and is refused with the error
of the demand otherwise. -/
theorem demand_eq (k : ArgKind) (v : Value) :
    k.demand v =
      match k.read v with
      | .ok _ => none
      | .error e => some (.raised e) := by
  cases k <;> cases v <;> rfl

theorem exists_read_of_demand {k : ArgKind} {v : Value} (h : k.demand v = none) :
    ∃ a, k.read v = .ok a := by
  rw [demand_eq] at h
  rcases hread : k.read v with e | a
  · exact absurd (hread ▸ h) nofun
  · exact ⟨a, rfl⟩

theorem exists_error_of_demand {k : ArgKind} {v : Value} {e : CallError} (h : k.demand v = some e) :
    ∃ x, k.read v = .error x ∧ .raised x = e := by
  rw [demand_eq] at h
  rcases hread : k.read v with x | a
  · rw [hread] at h
    exact ⟨x, rfl, Option.some.inj h⟩
  · rw [hread] at h
    exact absurd h nofun

/-- **What is written is read back.** A slot has no room for a character beyond a code unit, so this
is not said of characters. -/
theorem read_write {k : ArgKind} (hk : k ≠ .char) (a : k.Carrier) : k.read (k.write a) = .ok a := by
  match k with
  | any | int | long | float | double | reference => rfl
  | boolean => cases a <;> rfl
  | nullable => cases a <;> rfl
  | char => exact absurd rfl hk

end ArgKind

/-- What is asked of the slot of the receiver. -/
def receiverDemand : Demand
  | .ref _ => none
  | .null => some (.raised (.nullUse "method invoked on null receiver"))
  | v => some (.stack (.primitive v.kind))

/-- What is asked of the slots of arguments, from the top: the last argument comes first. -/
def argDemands (ks : List ArgKind) : List Demand :=
  (ks.map ArgKind.demand).reverse

/-- What is asked of the slots of a call, from the top: the receiver lies below the arguments. -/
def callDemands (ks : List ArgKind) : List Demand :=
  argDemands ks ++ [receiverDemand]

theorem argDemands_cons (k : ArgKind) (ks : List ArgKind) :
    argDemands (k :: ks) = argDemands ks ++ [k.demand] := by
  rw [argDemands, List.map_cons, List.reverse_cons]
  rfl

@[simp]
theorem length_argDemands (ks : List ArgKind) : (argDemands ks).length = ks.length := by
  rw [argDemands, List.length_reverse, List.length_map]

namespace OperandStack

/-! ### The first slot that is refused -/

/-- Slots are taken from the top, one for each demand, and the taking ends with an error. The slots
given last are those that are left. -/
inductive Refused (demands : List Demand) (slots : List Value) : CallError → List Value → Prop
  /-- A slot does not meet its demand, and all slots above it do. -/
  | unmet {met rest : List Demand} {d : Demand} {above below : List Value} {v : Value}
      {e : CallError} (hdemands : demands = met ++ d :: rest) (hslots : slots = above ++ v :: below)
      (hmet : List.Forall₂ Demand.Met met above) (hunmet : d v = some e) :
      Refused demands slots e below
  /-- All slots that are there meet their demands, and a demand is left. -/
  | exhausted {met rest : List Demand} {d : Demand} (hdemands : demands = met ++ d :: rest)
      (hmet : List.Forall₂ Demand.Met met slots) : Refused demands slots (.stack .underflow) []

/-- The error with which the taking ends, if it ends with one, and the slots that are left. -/
def firstRefusal : List Demand → List Value → Option (CallError × List Value)
  | [], _ => none
  | _ :: _, [] => some (.stack .underflow, [])
  | d :: ds, v :: vs =>
    match d v with
    | some e => some (e, vs)
    | none => firstRefusal ds vs

variable {met ds es : List Demand} {d : Demand} {above below slots : List Value} {v : Value}
  {e : CallError}

theorem firstRefusal_cons_of_met (h : d v = none) :
    firstRefusal (d :: ds) (v :: slots) = firstRefusal ds slots := by
  rw [firstRefusal, h]

theorem firstRefusal_cons_of_unmet (h : d v = some e) :
    firstRefusal (d :: ds) (v :: slots) = some (e, slots) := by
  rw [firstRefusal, h]

/-- Slots that meet their demands are passed over. -/
theorem firstRefusal_append_of_met (h : List.Forall₂ Demand.Met met above) :
    firstRefusal (met ++ ds) (above ++ slots) = firstRefusal ds slots := by
  induction h with
  | nil => rfl
  | cons hd _ ih =>
    rw [List.cons_append, List.cons_append, firstRefusal_cons_of_met hd]
    exact ih

/-- Later demands are looked at only if all earlier ones are met. -/
theorem firstRefusal_append (ds es : List Demand) (slots : List Value) :
    firstRefusal (ds ++ es) slots =
      (firstRefusal ds slots).or (firstRefusal es (slots.drop ds.length)) := by
  induction ds generalizing slots with
  | nil => rfl
  | cons d ds ih =>
    match slots with
    | [] => rfl
    | v :: vs =>
      rcases hd : d v with - | e
      · rw [List.cons_append, firstRefusal_cons_of_met hd, firstRefusal_cons_of_met hd, ih]
        rfl
      · rw [List.cons_append, firstRefusal_cons_of_unmet hd, firstRefusal_cons_of_unmet hd]
        rfl

/-- A slot that meets its demand moves the refusal one slot down. -/
theorem Refused.cons (hd : d v = none) (h : Refused ds slots e below) :
    Refused (d :: ds) (v :: slots) e below := by
  rcases h with ⟨rfl, rfl, hmet, hunmet⟩ | ⟨rfl, hmet⟩
  · exact .unmet rfl rfl (.cons hd hmet) hunmet
  · exact .exhausted rfl (.cons hd hmet)

/-- **The search finds the first slot that is refused.** -/
theorem refused_iff :
    Refused ds slots e below ↔ firstRefusal ds slots = some (e, below) := by
  constructor
  · intro h
    rcases h with ⟨rfl, rfl, hmet, hunmet⟩ | ⟨rfl, hmet⟩
    · rw [firstRefusal_append_of_met hmet, firstRefusal_cons_of_unmet hunmet]
    · rw [← List.append_nil slots, firstRefusal_append_of_met hmet, firstRefusal]
  · intro h
    induction ds generalizing slots with
    | nil => exact absurd h nofun
    | cons d ds ih =>
      match slots with
      | [] =>
        cases h
        exact .exhausted (List.nil_append _).symm .nil
      | v :: vs =>
        rcases hd : d v with - | e'
        · rw [firstRefusal_cons_of_met hd] at h
          exact (ih h).cons hd
        · rw [firstRefusal_cons_of_unmet hd] at h
          cases h
          exact .unmet (List.nil_append _).symm (List.nil_append _).symm .nil hd

/-! ### What taking comes to -/

/-- What comes of taking slots that have to meet demands: an outcome, and the stack that is left. -/
inductive Examined {α : Type} (s : OperandStack) (demands : List Demand) :
    Except CallError α → OperandStack → Prop
  /-- All demands are met. -/
  | passed {a : α} (hall : firstRefusal demands s.slots = none) :
      Examined s demands (.ok a) (s.dropTop demands.length)
  /-- A slot is refused, or there is none. -/
  | refused {e : CallError} {t : OperandStack}
      (hfirst : firstRefusal demands s.slots = some (e, t.slots)) (hlimit : t.limit = s.limit) :
      Examined s demands (.error e) t

variable {α : Type} {s t : OperandStack} {ks : List ArgKind}

/-- A stack is known by its slots and its limit. -/
theorem eq_of_slots_eq (hslots : s.slots = t.slots) (hlimit : s.limit = t.limit) : s = t := by
  obtain ⟨slots, room⟩ := s
  obtain ⟨slots', room'⟩ := t
  obtain rfl : slots = slots' := hslots
  have hroom : slots.length + room = slots.length + room' := hlimit
  rw [Nat.add_left_cancel hroom]

theorem Examined.of_ok {a : α} (h : Examined s ds (.ok a) t) :
    firstRefusal ds s.slots = none ∧ t = s.dropTop ds.length := by
  cases h with
  | passed hall => exact ⟨hall, rfl⟩

theorem Examined.of_error (h : Examined s ds (.error e : Except CallError α) t) :
    firstRefusal ds s.slots = some (e, t.slots) ∧ t.limit = s.limit := by
  cases h with
  | refused hfirst hlimit => exact ⟨hfirst, hlimit⟩

/-- **An error is that of the first slot that is refused**, and takes this slot away with all slots
above it. -/
theorem Examined.eq_error_iff {taken : Except CallError α × OperandStack}
    (h : Examined s ds taken.1 taken.2) :
    taken = (.error e, t) ↔ Refused ds s.slots e t.slots ∧ t.limit = s.limit := by
  obtain ⟨e' | a, left⟩ := taken
  · obtain ⟨hfirst, hlimit⟩ := h.of_error
    rw [refused_iff, hfirst]
    constructor
    · intro heq
      cases heq
      exact ⟨rfl, hlimit⟩
    · rintro ⟨hsame, hlimit'⟩
      obtain ⟨rfl, hslots⟩ := Prod.mk.inj (Option.some.inj hsame)
      have hleft : left = t := eq_of_slots_eq hslots (hlimit.trans hlimit'.symm)
      rw [hleft]
  · rw [refused_iff, h.of_ok.1]
    exact iff_of_false nofun fun hrefused ↦ absurd hrefused.1 nofun

/-- What one more slot is, below those that have been taken, decides what comes of taking it. -/
theorem Examined.next {n : Nat} {outcome : Except CallError α}
    (hall : firstRefusal ds s.slots = none) (hlength : ds.length = n)
    (hmet : ∀ h : n < s.depth, d s.slots[n] = none → ∃ a, outcome = .ok a ∧ t = s.dropTop (n + 1))
    (hunmet : ∀ (h : n < s.depth) (e : CallError), d s.slots[n] = some e →
      outcome = .error e ∧ t = s.dropTop (n + 1))
    (hshort : s.depth ≤ n → outcome = .error (.stack .underflow) ∧ t = .empty s.limit) :
    Examined s (ds ++ [d]) outcome t := by
  have happend := firstRefusal_append ds [d] s.slots
  rw [hall, Option.none_or, hlength] at happend
  rcases Nat.lt_or_ge n s.depth with hlt | hge
  · rw [List.drop_eq_getElem_cons hlt] at happend
    rcases hd : d s.slots[n] with - | e
    · obtain ⟨a, rfl, rfl⟩ := hmet hlt hd
      rw [firstRefusal_cons_of_met hd] at happend
      have hpassed : Examined s (ds ++ [d]) (.ok a) _ := .passed happend
      rwa [List.length_append, hlength] at hpassed
    · obtain ⟨rfl, rfl⟩ := hunmet hlt e hd
      rw [firstRefusal_cons_of_unmet hd] at happend
      exact .refused happend (limit_dropTop s _)
  · obtain ⟨rfl, rfl⟩ := hshort hge
    rw [List.drop_of_length_le hge] at happend
    exact .refused happend (limit_empty s.limit)

/-- A slot that is refused is the last one that is looked at. -/
theorem Examined.append (h : Examined s ds (.error e : Except CallError α) t) (es : List Demand)
    {β : Type} : Examined s (ds ++ es) (.error e : Except CallError β) t := by
  obtain ⟨hfirst, hlimit⟩ := h.of_error
  refine .refused ?_ hlimit
  rw [firstRefusal_append, hfirst, Option.some_or]

/-- What comes of taking the arguments of a call is decided by the demands on them. -/
theorem takeArgs_examined (ks : List ArgKind) (s : OperandStack) :
    Examined s (argDemands ks) (s.takeArgs ks).1 (s.takeArgs ks).2 := by
  induction ks with
  | nil =>
    have h : Examined s [] (.ok Args.nil) (s.dropTop 0) := .passed rfl
    rwa [dropTop_zero] at h
  | cons k ks ih =>
    rw [takeArgs, argDemands_cons]
    -- the later arguments lie above the first one, so they are taken before it
    generalize s.takeArgs ks = later at ih
    obtain ⟨e | rest, t⟩ := later
    · exact ih.append _
    · obtain ⟨hall, ht⟩ := ih.of_ok
      simp only [length_argDemands] at ht
      subst ht
      refine .next hall (length_argDemands ks) (fun hlt hd ↦ ?_) (fun hlt e hd ↦ ?_) fun hge ↦ ?_
      · obtain ⟨a, ha⟩ := k.exists_read_of_demand hd
        simp only [pop_dropTop_of_lt hlt, ha, and_true]
        exact ⟨_, rfl⟩
      · obtain ⟨x, hx, rfl⟩ := k.exists_error_of_demand hd
        simp only [pop_dropTop_of_lt hlt, hx, and_self]
      · simp only [dropTop_of_depth_le hge, pop_empty, and_self]

/-- What comes of taking the arguments of a call and its receiver is decided by the demands. -/
theorem takeCall_examined (ks : List ArgKind) (s : OperandStack) :
    Examined s (callDemands ks) (s.takeCall ks).1 (s.takeCall ks).2 := by
  have hargs := takeArgs_examined ks s
  rw [takeCall, callDemands]
  generalize s.takeArgs ks = taken at hargs
  obtain ⟨e | args, t⟩ := taken
  · exact hargs.append _
  · obtain ⟨hall, ht⟩ := hargs.of_ok
    simp only [length_argDemands] at ht
    subst ht
    refine .next hall (length_argDemands ks) (fun hlt hd ↦ ?_) (fun hlt e hd ↦ ?_) fun hge ↦ ?_
    · simp only [popRef, pop_dropTop_of_lt hlt]
      generalize s.slots[ks.length] = v at hd
      cases v <;> cases hd
      exact ⟨_, rfl, rfl⟩
    · simp only [popRef, pop_dropTop_of_lt hlt]
      generalize s.slots[ks.length] = v at hd
      cases v <;> cases hd <;> exact ⟨rfl, rfl⟩
    · simp only [popRef, dropTop_of_depth_le hge, pop_empty, and_self]

end OperandStack

end HostMethods
