import HostMethods.Proofs.Stack.Demands

/-!
# Arguments come off a stack as they were pushed

A caller pushes a receiver and then arguments from left to right, and a method takes them in
reverse. The two sides fit together (`OperandStack.marshals`): what was pushed is what is taken, in
declaration order, and the stack is afterwards what it was before. Nothing is assumed of the stack
below, and a stack that was not filled in this way is described just as exactly. A call takes what
its slots read as, or it ends at the first slot that does not meet its demand.
-/

namespace HostMethods

/-- What the arguments were written to is what they are read from. -/
theorem Args.readFrom_values {ks : List ArgKind} (hks : .char ∉ ks) (args : Args ks) :
    args.ReadFrom args.values := by
  induction args with
  | nil => rfl
  | @cons k ks a rest ih =>
    obtain ⟨hk, hks⟩ := not_or.1 (List.mem_cons.not.1 hks)
    exact ⟨k.write a, rest.values, rfl, ArgKind.read_write (Ne.symm hk) a, ih hks⟩

namespace OperandStack

variable {s t : OperandStack} {ks : List ArgKind} {args : Args ks} {vs below : List Value} {r : Ref}

/-! ### Taking what the slots read as -/

theorem pop_of_slots {v : Value} (h : s.slots = v :: below) :
    s.pop = .ok (v, ⟨below, s.room + 1⟩) := by
  rw [pop, h]

theorem takeArgs_of_readFrom (hread : args.ReadFrom vs) (hslots : s.slots = vs.reverse ++ below) :
    ∃ t, s.takeArgs ks = (.ok args, t) ∧ t.slots = below := by
  induction args generalizing vs below with
  | nil =>
    obtain rfl : vs = [] := hread
    exact ⟨s, rfl, hslots⟩
  | @cons k ks a rest ih =>
    obtain ⟨v, later, rfl, hv, hlater⟩ := hread
    rw [List.reverse_cons, List.append_assoc, List.singleton_append] at hslots
    -- the first argument is what the later ones have left on top
    obtain ⟨t, ht, htop⟩ := ih hlater hslots
    refine ⟨⟨below, t.room + 1⟩, ?_, rfl⟩
    simp only [takeArgs, ht, pop_of_slots htop, hv]

/-- **Arguments are taken exactly if they are what the slots on top read as**, the last one being
uppermost, and the slots below are left. -/
theorem takeArgs_eq_ok_iff :
    s.takeArgs ks = (.ok args, t) ↔
      ∃ vs, args.ReadFrom vs ∧ s.slots = vs.reverse ++ t.slots ∧ t.limit = s.limit := by
  have htaken := takeArgs_taken ks s
  constructor
  · intro h
    rw [h] at htaken
    obtain ⟨vs, hread, hslots⟩ := slots_of_takeArgs h
    exact ⟨vs, hread, hslots, htaken.suffix.2.2⟩
  · rintro ⟨vs, hread, hslots, hlimit⟩
    obtain ⟨u, hu, hleft⟩ := takeArgs_of_readFrom hread hslots
    rw [hu] at htaken
    have hsame : u = t := eq_of_slots_eq hleft (htaken.suffix.2.2.trans hlimit.symm)
    rw [hu, hsame]

/-- **A receiver is taken exactly if it lies below the arguments.** -/
theorem takeCall_eq_ok_iff :
    s.takeCall ks = (.ok (r, args), t) ↔
      ∃ vs, args.ReadFrom vs ∧ s.slots = vs.reverse ++ .ref r :: t.slots ∧ t.limit = s.limit := by
  have htaken := takeCall_taken ks s
  constructor
  · intro h
    rw [h] at htaken
    obtain ⟨vs, hread, hslots⟩ := slots_of_takeCall h
    exact ⟨vs, hread, hslots, htaken.suffix.2.2⟩
  · rintro ⟨vs, hread, hslots, hlimit⟩
    obtain ⟨u, hu, hleft⟩ := takeArgs_of_readFrom hread hslots
    have hcall : s.takeCall ks = (.ok (r, args), ⟨t.slots, u.room + 1⟩) := by
      simp only [takeCall, hu, popRef, pop_of_slots hleft]
    rw [hcall] at htaken
    have hsame : ⟨t.slots, u.room + 1⟩ = t :=
      eq_of_slots_eq rfl (htaken.suffix.2.2.trans hlimit.symm)
    rw [hcall, hsame]

/-! ### Pushing -/

/-- **Values can be pushed one after the other exactly if there is room for all of them.** -/
theorem deliverAll_eq_ok_iff :
    s.deliverAll vs = (.ok (), t) ↔
      vs.length ≤ s.room ∧ t.slots = vs.reverse ++ s.slots ∧ t.limit = s.limit := by
  induction vs generalizing s with
  | nil =>
    constructor
    · intro h
      cases h
      exact ⟨Nat.zero_le _, rfl, rfl⟩
    · rintro ⟨-, hslots, hlimit⟩
      rw [deliverAll, eq_of_slots_eq hslots hlimit]
  | cons v vs ih =>
    rw [deliverAll, deliver, List.length_cons, List.reverse_cons, List.append_assoc]
    rcases hpush : s.push v with fault | u
    · have hfull := (push_eq_error_iff.1 hpush).1
      have hroom : s.room = 0 := by
        rw [limit] at hfull
        omega
      constructor
      · intro h
        cases h
      · rintro ⟨hlength, -⟩
        omega
    · have hlimit := limit_of_push hpush
      obtain ⟨hroom, rfl⟩ := push_eq_ok_iff.1 hpush
      show deliverAll vs ⟨v :: s.slots, s.room - 1⟩ = _ ↔ _
      rw [ih, hlimit]
      show vs.length ≤ s.room - 1 ∧ _ ↔ _
      have hle : vs.length ≤ s.room - 1 ↔ vs.length + 1 ≤ s.room := by omega
      rw [hle]
      rfl

/-! ### Both together -/

/-- How the arguments of a call, and its receiver, come off a stack. -/
structure Marshals (ks : List ArgKind) (s : OperandStack) : Prop where
  /-- The arguments are what the slots on top read as, in declaration order; the receiver is in the
  slot below them; and the slots below that one are left. -/
  takeCall_eq_ok_iff : ∀ (r : Ref) (args : Args ks) (t : OperandStack),
    s.takeCall ks = (.ok (r, args), t) ↔
      ∃ vs, args.ReadFrom vs ∧ s.slots = vs.reverse ++ .ref r :: t.slots ∧ t.limit = s.limit
  /-- The error is that of the first slot from the top that does not meet its demand, and this slot
  is the last one taken; if there is none among the slots that are there, the stack is emptied. -/
  takeCall_eq_error_iff : ∀ (e : CallError) (t : OperandStack),
    s.takeCall ks = (.error e, t) ↔
      Refused (callDemands ks) s.slots e t.slots ∧ t.limit = s.limit
  /-- Without a receiver the same is true of the arguments. -/
  takeArgs_eq_ok_iff : ∀ (args : Args ks) (t : OperandStack),
    s.takeArgs ks = (.ok args, t) ↔
      ∃ vs, args.ReadFrom vs ∧ s.slots = vs.reverse ++ t.slots ∧ t.limit = s.limit
  takeArgs_eq_error_iff : ∀ (e : CallError) (t : OperandStack),
    s.takeArgs ks = (.error e, t) ↔
      Refused (argDemands ks) s.slots e t.slots ∧ t.limit = s.limit
  /-- There is room for values exactly if they can be pushed. -/
  exists_deliverAll_iff : ∀ vs : List Value,
    (∃ t, s.deliverAll vs = (.ok (), t)) ↔ vs.length ≤ s.room
  /-- A receiver and arguments that were pushed are taken as they were, and the stack is as it was
  before. -/
  takeCall_of_deliverAll : .char ∉ ks → ∀ (r : Ref) (args : Args ks) (t : OperandStack),
    s.deliverAll (.ref r :: args.values) = (.ok (), t) → t.takeCall ks = (.ok (r, args), s)
  takeArgs_of_deliverAll : .char ∉ ks → ∀ (args : Args ks) (t : OperandStack),
    s.deliverAll args.values = (.ok (), t) → t.takeArgs ks = (.ok args, s)

/-- **Arguments come off a stack as they were pushed.** On any stack, and for any kinds of
arguments, a call takes its receiver and its arguments exactly if the slots hold them, and otherwise
ends at the first slot that does not. What was pushed for a call is taken by it, in declaration
order, and nothing else is. -/
theorem marshals (ks : List ArgKind) (s : OperandStack) : s.Marshals ks where
  takeCall_eq_ok_iff _ _ _ := takeCall_eq_ok_iff
  takeCall_eq_error_iff _ _ := (takeCall_examined ks s).eq_error_iff
  takeArgs_eq_ok_iff _ _ := takeArgs_eq_ok_iff
  takeArgs_eq_error_iff _ _ := (takeArgs_examined ks s).eq_error_iff
  exists_deliverAll_iff vs := by
    constructor
    · rintro ⟨t, ht⟩
      exact (deliverAll_eq_ok_iff.1 ht).1
    · intro hroom
      refine ⟨⟨vs.reverse ++ s.slots, s.room - vs.length⟩,
        deliverAll_eq_ok_iff.2 ⟨hroom, rfl, ?_⟩⟩
      show (vs.reverse ++ s.slots).length + (s.room - vs.length) = s.slots.length + s.room
      rw [List.length_append, List.length_reverse]
      omega
  takeCall_of_deliverAll hks r args t ht := by
    obtain ⟨-, hslots, hlimit⟩ := deliverAll_eq_ok_iff.1 ht
    rw [List.reverse_cons, List.append_assoc, List.singleton_append] at hslots
    exact takeCall_eq_ok_iff.2 ⟨_, args.readFrom_values hks, hslots, hlimit.symm⟩
  takeArgs_of_deliverAll hks args t ht := by
    obtain ⟨-, hslots, hlimit⟩ := deliverAll_eq_ok_iff.1 ht
    exact takeArgs_eq_ok_iff.2 ⟨_, args.readFrom_values hks, hslots, hlimit.symm⟩

/-- Of three arguments the second one does not fit: it goes with the third, and the receiver and the
first one stay. -/
example :
    takeCall [.int, .long, .boolean] ⟨[.int 1, .null, .int 5, .ref ⟨0⟩], 3⟩ =
      (.error (.raised (.wrongType "long" "null")), ⟨[.int 5, .ref ⟨0⟩], 5⟩) := rfl

end OperandStack

end HostMethods
