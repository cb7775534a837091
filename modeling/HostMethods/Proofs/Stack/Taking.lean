import HostMethods.Argument

/-!
# What taking arguments does to a stack

A method takes its arguments slot by slot, and may have to stop at any of them. Whatever happens,
only the top of the stack is gone: `dropTop s n` is the stack `s` without its top `n` values, and
every operation that takes something leaves a stack of this form.

`Taken` lists what can come of taking a number of values, and rests on nothing but the number: all
of them were there and fitted, one of them did not fit, or the stack ran out of values. Which of
the three it was decides how many slots are gone, and only the last is an underflow. `takeArgs` and
`takeCall` are instances of it (`takeArgs_taken`, `takeCall_taken`), and both limits of a stack
follow from the list alone (`Taken.suffix`). What a call gets is what its slots read as, the last
argument being on top and the receiver below all of them (`slots_of_takeCall`).
-/

namespace HostMethods

/-- Whether an error says that a stack was too small or too empty. The errors of a slot that holds
the wrong thing are no such errors, nor is anything that a method reports by itself. -/
def CallError.hitsLimit : CallError → Bool
  | violated (.stack (.overflow _)) | violated (.stack .underflow) => true
  | _ => false

namespace OperandStack

/-! ### Stacks without their top values -/

/-- The stack without its top `n` values. A stack that holds fewer is emptied. -/
def dropTop (s : OperandStack) (n : Nat) : OperandStack :=
  ⟨s.slots.drop n, s.room + min n s.depth⟩

@[simp]
theorem slots_dropTop (s : OperandStack) (n : Nat) : (s.dropTop n).slots = s.slots.drop n :=
  rfl

@[simp]
theorem room_dropTop (s : OperandStack) (n : Nat) : (s.dropTop n).room = s.room + min n s.depth :=
  rfl

@[simp]
theorem depth_dropTop (s : OperandStack) (n : Nat) : (s.dropTop n).depth = s.depth - n :=
  List.length_drop

@[simp]
theorem limit_dropTop (s : OperandStack) (n : Nat) : (s.dropTop n).limit = s.limit := by
  rw [limit, depth_dropTop, room_dropTop, limit]
  omega

@[simp]
theorem dropTop_zero (s : OperandStack) : s.dropTop 0 = s := by
  simp [dropTop]

/-- A stack that lost all its values is the empty one of its limit. -/
theorem dropTop_of_depth_le {s : OperandStack} {n : Nat} (h : s.depth ≤ n) :
    s.dropTop n = empty s.limit := by
  rw [dropTop, List.drop_of_length_le h, Nat.min_eq_right h, empty, limit, Nat.add_comm]

/-- The value under `n` others is what a pop takes next, if there is one. -/
theorem pop_dropTop_of_lt {s : OperandStack} {n : Nat} (h : n < s.depth) :
    (s.dropTop n).pop = .ok (s.slots[n], s.dropTop (n + 1)) := by
  have hroom : s.room + min n s.depth + 1 = s.room + min (n + 1) s.depth := by omega
  rw [pop, slots_dropTop, List.drop_eq_getElem_cons h, room_dropTop, hroom, dropTop]

/-- Nothing can be popped off a stack that lost all its values. -/
theorem pop_empty (limit : Nat) : (empty limit).pop = .error .underflow :=
  rfl

/-! ### Taking several values -/

/-- What can come of taking `demand` values off the stack `s`, one after the other: an outcome, and
the stack that is left. -/
inductive Taken {α : Type} (s : OperandStack) (demand : Nat) :
    Except CallError α → OperandStack → Prop
  /-- All values were there, and all of them fitted. -/
  | complete {a : α} (hdepth : demand ≤ s.depth) : Taken s demand (.ok a) (s.dropTop demand)
  /-- The last of the `n` values that were taken did not fit. -/
  | refused {e : CallError} {n : Nat} (hn : n ≤ demand) (hdepth : n ≤ s.depth)
      (he : e.hitsLimit = false) : Taken s demand (.error e) (s.dropTop n)
  /-- The stack ran out of values, all of which had fitted. -/
  | short (hdepth : s.depth < demand) :
      Taken s demand (.error (.stack .underflow)) (.empty s.limit)

namespace Taken

variable {α β : Type} {s t : OperandStack} {demand : Nat} {outcome : Except CallError α}

/-- **Only the top is gone**: what is left is the bottom part of the stack, it lacks at most as
many values as were asked for, and the limit is still the same. -/
theorem suffix (h : Taken s demand outcome t) :
    t.slots <:+ s.slots ∧ s.depth ≤ t.depth + demand ∧ t.limit = s.limit := by
  cases h with
  | complete hdepth =>
    refine ⟨List.drop_suffix demand s.slots, ?_, limit_dropTop s demand⟩
    rw [depth_dropTop]
    omega
  | @refused _ n hn hdepth _ =>
    refine ⟨List.drop_suffix n s.slots, ?_, limit_dropTop s n⟩
    rw [depth_dropTop]
    omega
  | short hdepth =>
    refine ⟨List.nil_suffix, ?_, limit_empty s.limit⟩
    rw [depth_empty]
    omega

/-- **An underflow means what it says**: there were fewer values than were asked for. Taking values
never asks for room, so no other error is about the size of the stack. -/
theorem underflow_of_hitsLimit {e : CallError}
    (h : Taken s demand (.error e : Except CallError α) t) (he : e.hitsLimit = true) :
    e = .stack .underflow ∧ s.depth < demand := by
  cases h with
  | refused hn hdepth hfits => exact absurd (hfits.symm.trans he) (by decide)
  | short hdepth => exact ⟨rfl, hdepth⟩

/-- Success leaves exactly the values below those that were asked for. -/
theorem of_ok {a : α} (h : Taken s demand (.ok a) t) : demand ≤ s.depth ∧ t = s.dropTop demand := by
  cases h with
  | complete hdepth => exact ⟨hdepth, rfl⟩

/-- A shortage of what was asked for first is a shortage of the whole. -/
theorem error_mono {e : CallError} {demand' : Nat} (hle : demand ≤ demand')
    (h : Taken s demand (.error e : Except CallError α) t) :
    Taken s demand' (.error e : Except CallError β) t := by
  cases h with
  | refused hn hdepth he => exact .refused (Nat.le_trans hn hle) hdepth he
  | short hdepth => exact .short (Nat.lt_of_lt_of_le hdepth hle)

end Taken

/-- What comes of taking the arguments of a call. -/
theorem takeArgs_taken (ks : List ArgKind) (s : OperandStack) :
    Taken s ks.length (s.takeArgs ks).1 (s.takeArgs ks).2 := by
  induction ks with
  | nil =>
    have h : Taken s 0 (.ok Args.nil) (s.dropTop 0) := .complete (Nat.zero_le _)
    rwa [dropTop_zero] at h
  | cons k ks ih =>
    rw [takeArgs]
    -- the later arguments lie above the first one, so they are taken before it
    generalize s.takeArgs ks = later at ih
    obtain ⟨e | args, t⟩ := later
    · exact ih.error_mono (Nat.le_succ _)
    · obtain ⟨hdepth, ht⟩ := ih.of_ok
      simp only at ht
      subst ht
      rcases Nat.lt_or_ge ks.length s.depth with hlt | hge
      · simp only [pop_dropTop_of_lt hlt]
        cases k.read s.slots[ks.length] with
        | error e => exact .refused (Nat.le_refl _) hlt rfl
        | ok a => exact .complete hlt
      · simp only [dropTop_of_depth_le hge, pop_empty]
        exact .short (Nat.lt_succ_of_le hge)

/-- What comes of taking the arguments of a call and its receiver. -/
theorem takeCall_taken (ks : List ArgKind) (s : OperandStack) :
    Taken s (ks.length + 1) (s.takeCall ks).1 (s.takeCall ks).2 := by
  have hargs := takeArgs_taken ks s
  rw [takeCall]
  generalize s.takeArgs ks = taken at hargs
  obtain ⟨e | args, t⟩ := taken
  · exact hargs.error_mono (Nat.le_succ _)
  · obtain ⟨hdepth, ht⟩ := hargs.of_ok
    simp only at ht
    subst ht
    rcases Nat.lt_or_ge ks.length s.depth with hlt | hge
    · simp only [popRef, pop_dropTop_of_lt hlt]
      cases s.slots[ks.length] with
      | ref r => exact .complete hlt
      | null => exact .refused (Nat.le_refl _) hlt rfl
      | int _ | long _ | float _ | double _ => exact .refused (Nat.le_refl _) hlt rfl
    · simp only [popRef, dropTop_of_depth_le hge, pop_empty]
      exact .short (Nat.lt_succ_of_le hge)

end OperandStack

/-! ### Why values are refused -/

/-- Whether an error is one that taking arguments can find: the guest's mistake, or a fault of the
stack. -/
def CallError.isOfTaking : CallError → Bool
  | raised _ | violated (.stack _) => true
  | violated _ => false

namespace OperandStack

variable {s t : OperandStack} {ks : List ArgKind} {e : CallError}

theorem isOfTaking_of_takeArgs (h : s.takeArgs ks = (.error e, t)) : e.isOfTaking = true := by
  induction ks generalizing e t with
  | nil => cases h
  | cons k ks ih =>
    rw [takeArgs] at h
    split at h
    next hlater =>
      cases h
      exact ih hlater
    · split at h
      · cases h
        rfl
      · split at h <;> cases h
        rfl

theorem isOfTaking_of_takeCall (h : s.takeCall ks = (.error e, t)) : e.isOfTaking = true := by
  rw [takeCall] at h
  split at h
  next hargs =>
    cases h
    exact isOfTaking_of_takeArgs hargs
  · split at h <;> cases h <;> rfl

end OperandStack

/-! ### What was taken -/

/-- The arguments are what the values read as, in declaration order. -/
def Args.ReadFrom : {ks : List ArgKind} → Args ks → List Value → Prop
  | [], nil, vs => vs = []
  | k :: _, cons a rest, vs => ∃ v later, vs = v :: later ∧ k.read v = .ok a ∧ rest.ReadFrom later

/-- Every argument is read from a value of its own. -/
theorem Args.ReadFrom.length_eq {ks : List ArgKind} {args : Args ks} {vs : List Value}
    (h : args.ReadFrom vs) : vs.length = ks.length := by
  induction args generalizing vs with
  | nil =>
    obtain rfl : vs = [] := h
    rfl
  | cons a rest ih =>
    obtain ⟨v, later, rfl, -, hlater⟩ := h
    rw [List.length_cons, List.length_cons, ih hlater]

namespace OperandStack

variable {s t : OperandStack} {ks : List ArgKind} {args : Args ks}

theorem slots_of_pop {v : Value} (h : s.pop = .ok (v, t)) : s.slots = v :: t.slots := by
  rw [pop] at h
  split at h <;> cases h
  assumption

/-- The last argument was on top. -/
theorem slots_of_takeArgs (h : s.takeArgs ks = (.ok args, t)) :
    ∃ vs, args.ReadFrom vs ∧ s.slots = vs.reverse ++ t.slots := by
  induction ks generalizing t with
  | nil =>
    cases h
    exact ⟨[], rfl, rfl⟩
  | cons k ks ih =>
    rw [takeArgs] at h
    split at h
    · cases h
    next rest u hlater =>
      obtain ⟨vs, hread, hslots⟩ := ih hlater
      split at h
      · cases h
      next v u' hpop =>
        split at h <;> cases h
        next a ha =>
          refine ⟨v :: vs, ⟨v, vs, rfl, ha, hread⟩, ?_⟩
          rw [hslots, slots_of_pop hpop, List.reverse_cons, List.append_assoc]
          rfl

/-- The receiver was below the arguments. -/
theorem slots_of_takeCall {r : Ref} (h : s.takeCall ks = (.ok (r, args), t)) :
    ∃ vs, args.ReadFrom vs ∧ s.slots = vs.reverse ++ .ref r :: t.slots := by
  rw [takeCall] at h
  split at h
  · cases h
  next args' u hargs =>
    obtain ⟨vs, hread, hslots⟩ := slots_of_takeArgs hargs
    rw [popRef] at h
    cases hpop : u.pop with
    | error fault =>
      rw [hpop] at h
      cases h
    | ok popped =>
      obtain ⟨v, u'⟩ := popped
      rw [hpop] at h
      cases v <;> cases h
      exact ⟨vs, hread, by rw [hslots, slots_of_pop hpop]⟩

end OperandStack

end HostMethods
