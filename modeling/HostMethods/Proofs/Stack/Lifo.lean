import HostMethods.Proofs.Stack.Taking
import Mathlib.Data.Nat.PSub

/-!
# A stack is a bounded list that gives back last what it got first

A stack is used through requests (`StackRequest`), one after the other, and answers each of them
(`OperandStack.respondAll`). No sequence of requests moves the limit, since every request that takes
a value away makes room for one and every request that adds one uses it up (`limit_respond`). So the
depth stays within the limit that the stack was made with, and everything else that is true of a
stack after a run is true of any stack with that limit (`OperandStack.isLifo`).

The three ways to see the slots agree. Popping `m` times shows what peeking under `0, 1, …, m - 1`
values does, the underflows at the end included (`respondAll_pops`), and popping as often as has
been pushed shows what was pushed, the last value first, and leaves the stack as it was
(`respondAll_pops_of_pushes`). A peek by index, as into an array whose deepest value comes first,
finds its index without going below zero and inside the array (`peekIndexed?_eq`).
-/

namespace HostMethods

/-- What a stack can be asked for. -/
inductive StackRequest
  /-- Puts a value on top. -/
  | push (v : Value)
  /-- Takes the top value. -/
  | pop
  /-- Takes the top value as a reference. -/
  | popRef
  /-- Reads the top value. -/
  | peek
  /-- Reads the value under `n` others. -/
  | peekAt (n : Nat)
  deriving DecidableEq

/-- What a stack answers. -/
inductive StackAnswer
  /-- The value is on top. -/
  | pushed
  | value (v : Value)
  /-- A reference, or null. -/
  | reference (r : Option Ref)
  | refused (fault : StackFault)
  deriving DecidableEq

/-- The answer to a request for a reference, if the top value is the one given. -/
def Value.asReference : Value → StackAnswer
  | null => .reference none
  | ref r => .reference (some r)
  | v => .refused (.primitive v.kind)

namespace OperandStack

/-- Answers a request. -/
def respond (s : OperandStack) : StackRequest → StackAnswer × OperandStack
  | .push v =>
    match s.push v with
    | .ok t => (.pushed, t)
    | .error fault => (.refused fault, s)
  | .pop =>
    match s.pop with
    | .ok (v, t) => (.value v, t)
    | .error fault => (.refused fault, s)
  | .popRef =>
    match s.popRef with
    | (.ok r, t) => (.reference r, t)
    | (.error fault, t) => (.refused fault, t)
  | .peek =>
    match s.peek with
    | .ok v => (.value v, s)
    | .error fault => (.refused fault, s)
  | .peekAt n =>
    match s.peekAt n with
    | .ok v => (.value v, s)
    | .error fault => (.refused fault, s)

/-- Answers requests one after the other. -/
def respondAll (s : OperandStack) : List StackRequest → List StackAnswer × OperandStack
  | [] => ([], s)
  | request :: requests =>
    let (answer, s) := s.respond request
    let (answers, s) := s.respondAll requests
    (answer :: answers, s)

/-- The values, the deepest one first. -/
def bottomUp (s : OperandStack) : List Value :=
  s.slots.reverse

/-- A peek by index, as into an array whose deepest value comes first. There is none if the index
would be below zero or behind the last value. -/
def peekIndexed? (s : OperandStack) (n : Nat) : Option (Except StackFault Value) :=
  if s.depth ≤ n then some (.error .underflow)
  else
    (s.depth.psub 1).bind fun last ↦
      (last.psub n).bind fun index ↦ s.bottomUp[index]?.map .ok

variable {s t : OperandStack} {v : Value}

/-! ### One equation per request -/

theorem respond_push_of_ok (h : s.push v = .ok t) : s.respond (.push v) = (.pushed, t) := by
  simp only [respond, h]

theorem respond_push_of_full (h : s.depth = s.limit) (v : Value) :
    s.respond (.push v) = (.refused (.overflow s.limit), s) := by
  simp only [respond, push_eq_error_iff.2 ⟨h, rfl⟩]

/-- A stack either is full or takes the value. -/
theorem full_or_exists_push (s : OperandStack) (v : Value) :
    s.depth = s.limit ∨ ∃ t, s.push v = .ok t := by
  cases hpush : s.push v with
  | error fault => exact .inl (push_eq_error_iff.1 hpush).1
  | ok t => exact .inr ⟨t, rfl⟩

/-- No value is refused for there being none. -/
theorem asReference_ne_underflow (v : Value) : v.asReference ≠ .refused .underflow := by
  intro h
  cases v <;> cases h

/-- A stack either is empty and gives nothing, or gives its top value, which can be put back. -/
theorem pop_cases (s : OperandStack) :
    (s.depth = 0 ∧ s.respond .pop = (.refused .underflow, s) ∧
      s.respond .popRef = (.refused .underflow, s)) ∨
    ∃ v t, 0 < s.depth ∧ s.respond .pop = (.value v, t) ∧ s.respond .popRef = (v.asReference, t) ∧
      t.respond (.push v) = (.pushed, s) := by
  obtain ⟨slots, room⟩ := s
  cases slots with
  | nil => exact .inl ⟨rfl, rfl, rfl⟩
  | cons v rest =>
    have hpopRef : respond ⟨v :: rest, room⟩ .popRef = (v.asReference, ⟨rest, room + 1⟩) := by
      cases v <;> rfl
    exact .inr ⟨v, _, Nat.succ_pos _, rfl, hpopRef, rfl⟩

/-- A peek answers with the slot that it is for, if there is one. -/
theorem respond_peekAt (s : OperandStack) (n : Nat) :
    s.respond (.peekAt n) =
      ((s.slots[n]?).elim (.refused .underflow) .value, s) := by
  rw [respond, peekAt]
  cases s.slots[n]? <;> rfl

/-! ### The limit -/

theorem limit_respond_push (s : OperandStack) (v : Value) :
    (s.respond (.push v)).2.limit = s.limit := by
  rcases full_or_exists_push s v with hfull | ⟨t, ht⟩
  · rw [respond_push_of_full hfull]
  · rw [respond_push_of_ok ht, limit_of_push ht]

/-- A stack to which a value can be put back has the limit that it had with the value. -/
theorem limit_of_respond_push (h : t.respond (.push v) = (.pushed, s)) : t.limit = s.limit := by
  have hlimit := limit_respond_push t v
  rw [h] at hlimit
  exact hlimit.symm

/-- **No request moves the limit.** -/
theorem limit_respond (s : OperandStack) (request : StackRequest) :
    (s.respond request).2.limit = s.limit := by
  cases request with
  | push v => exact limit_respond_push s v
  | pop =>
    rcases s.pop_cases with ⟨-, hpop, -⟩ | ⟨v, t, -, hpop, -, hback⟩
    · rw [hpop]
    · rw [hpop, limit_of_respond_push hback]
  | popRef =>
    rcases s.pop_cases with ⟨-, -, hpopRef⟩ | ⟨v, t, -, -, hpopRef, hback⟩
    · rw [hpopRef]
    · rw [hpopRef, limit_of_respond_push hback]
  | peek =>
    show (s.respond (.peekAt 0)).2.limit = s.limit
    rw [respond_peekAt]
  | peekAt n => rw [respond_peekAt]

/-- A run goes on with the stack that the requests so far have left. -/
theorem respondAll_append (s : OperandStack) (before after : List StackRequest) :
    s.respondAll (before ++ after) =
      ((s.respondAll before).1 ++ ((s.respondAll before).2.respondAll after).1,
        ((s.respondAll before).2.respondAll after).2) := by
  induction before generalizing s with
  | nil => rfl
  | cons request before ih => simp only [List.cons_append, respondAll, ih]

theorem limit_respondAll (s : OperandStack) (requests : List StackRequest) :
    (s.respondAll requests).2.limit = s.limit := by
  induction requests generalizing s with
  | nil => rfl
  | cons request requests ih =>
    rw [respondAll]
    exact (ih _).trans (limit_respond s request)

/-! ### Popping and peeking -/

/-- One value further down, there is what is one value deeper. -/
theorem respond_peekAt_of_pop (s : OperandStack) (n : Nat) :
    ((s.respond .pop).2.respond (.peekAt n)).1 = (s.respond (.peekAt (n + 1))).1 := by
  obtain ⟨slots, room⟩ := s
  rw [respond_peekAt, respond_peekAt]
  cases slots with
  | nil => rfl
  | cons v rest => rfl

/-- The first pop shows the top value. -/
theorem respond_pop_fst (s : OperandStack) : (s.respond .pop).1 = (s.respond (.peekAt 0)).1 := by
  obtain ⟨slots, room⟩ := s
  cases slots <;> rfl

/-- **Pops show what peeks do**, deeper and deeper, and fail where these do. -/
theorem respondAll_pops (s : OperandStack) (m : Nat) :
    (s.respondAll (List.replicate m .pop)).1 =
      (List.range m).map fun n ↦ (s.respond (.peekAt n)).1 := by
  induction m generalizing s with
  | zero => rfl
  | succ m ih =>
    rw [List.replicate_succ, respondAll, List.range_succ_eq_map, List.map_cons, List.map_map]
    simp only [ih, respond_pop_fst s]
    congr 1
    exact List.map_congr_left fun n _ ↦ respond_peekAt_of_pop s n

/-- **The index of a peek exists.** -/
theorem peekIndexed?_eq (s : OperandStack) (n : Nat) : s.peekIndexed? n = some (s.peekAt n) := by
  have hslots : s.slots.length = s.depth := rfl
  rw [peekIndexed?, peekAt]
  split
  next hle => rw [List.getElem?_eq_none hle]
  next hlt =>
    have hn : n < s.slots.length := Nat.lt_of_not_le hlt
    have hlast : s.depth.psub 1 = some (s.depth - 1) := Nat.psub_eq_sub (by omega)
    have hindex : (s.depth - 1).psub n = some (s.depth - 1 - n) := Nat.psub_eq_sub (by omega)
    have hbound : s.depth - 1 - n < s.slots.length := by omega
    have hplace : s.slots.length - 1 - (s.depth - 1 - n) = n := by omega
    rw [hlast, Option.bind_some, hindex, Option.bind_some, bottomUp,
      List.getElem?_reverse hbound, hplace, List.getElem?_eq_getElem hn]
    rfl

/-! ### Pushing and popping -/

/-- Pushes all go through exactly if there is room for all values. -/
theorem respondAll_pushes_iff (s : OperandStack) (vs : List Value) :
    (∀ answer ∈ (s.respondAll (vs.map .push)).1, answer = .pushed) ↔
      s.depth + vs.length ≤ s.limit := by
  induction vs generalizing s with
  | nil =>
    refine iff_of_true (fun answer hanswer ↦ absurd hanswer List.not_mem_nil) ?_
    rw [limit]
    exact Nat.le_add_right _ _
  | cons v vs ih =>
    rw [List.map_cons, respondAll, List.length_cons]
    rcases full_or_exists_push s v with hfull | ⟨t, ht⟩
    · rw [respond_push_of_full hfull]
      refine iff_of_false (fun h ↦ ?_) (by omega)
      cases h _ List.mem_cons_self
    · have hdepth : t.depth = s.depth + 1 := by
        obtain ⟨-, rfl⟩ := push_eq_ok_iff.1 ht
        exact List.length_cons
      rw [respond_push_of_ok ht, List.forall_mem_cons, ih, limit_of_push ht, hdepth]
      refine (and_iff_right rfl).trans ?_
      omega

/-- **What was pushed is popped in reverse order**, and the stack is as it was. -/
theorem respondAll_pops_of_pushes {s : OperandStack} {vs : List Value}
    (h : ∀ answer ∈ (s.respondAll (vs.map .push)).1, answer = .pushed) :
    (s.respondAll (vs.map .push)).2.respondAll (List.replicate vs.length .pop) =
      (vs.reverse.map .value, s) := by
  induction vs generalizing s with
  | nil => rfl
  | cons v vs ih =>
    rw [List.map_cons, respondAll] at h ⊢
    rcases full_or_exists_push s v with hfull | ⟨t, ht⟩
    · rw [respond_push_of_full hfull] at h
      cases h _ List.mem_cons_self
    · rw [respond_push_of_ok ht] at h ⊢
      have hlater := ih (List.forall_mem_cons.1 h).2
      -- the last of the pops is the one that takes `v`
      rw [List.length_cons, List.replicate_succ', respondAll_append, hlater]
      simp only [respondAll, respond, pop_of_push ht, List.reverse_cons, List.map_append,
        List.map_cons, List.map_nil]

/-! ### The law -/

/-- What can be relied on at a stack of a limit, whatever it holds. -/
structure IsLifo (limit : Nat) (s : OperandStack) : Prop where
  limit_eq : s.limit = limit
  depth_le : s.depth ≤ limit
  push_refused_iff : ∀ v,
    (∃ fault, (s.respond (.push v)).1 = .refused fault) ↔ s.depth = limit
  push_of_full : s.depth = limit → ∀ v, s.respond (.push v) = (.refused (.overflow limit), s)
  pop_refused_iff : ∀ fault,
    (s.respond .pop).1 = .refused fault ↔ s.depth = 0 ∧ fault = .underflow
  pop_value_iff : (∃ v, (s.respond .pop).1 = .value v) ↔ 0 < s.depth
  pop_of_empty : s.depth = 0 → (s.respond .pop).2 = s
  push_of_pop : ∀ v, (s.respond .pop).1 = .value v →
    (s.respond .pop).2.respond (.push v) = (.pushed, s)
  popRef_underflow_iff : (s.respond .popRef).1 = .refused .underflow ↔ s.depth = 0
  popRef_of_pop : ∀ v, (s.respond .pop).1 = .value v → (s.respond .popRef).1 = v.asReference
  popRef_snd : (s.respond .popRef).2 = (s.respond .pop).2
  peekAt_value_iff : ∀ n, (∃ v, (s.respond (.peekAt n)).1 = .value v) ↔ n < s.depth
  peekAt_eq_pop : ∀ n, (s.respondAll (List.replicate (n + 1) .pop)).1.getLast? =
    some (s.respond (.peekAt n)).1
  peekAt_snd : ∀ n, (s.respond (.peekAt n)).2 = s
  peekIndexed?_eq : ∀ n, s.peekIndexed? n = some (s.peekAt n)
  peek_eq : s.respond .peek = s.respond (.peekAt 0)
  pushed_iff : ∀ vs : List Value,
    (∀ answer ∈ (s.respondAll (vs.map .push)).1, answer = .pushed) ↔ s.depth + vs.length ≤ limit
  pops_of_pushes : ∀ vs : List Value,
    (∀ answer ∈ (s.respondAll (vs.map .push)).1, answer = .pushed) →
    (s.respondAll (vs.map .push)).2.respondAll (List.replicate vs.length .pop) =
      (vs.reverse.map .value, s)

/-- A stack is all this for its own limit. -/
theorem isLifo (s : OperandStack) : s.IsLifo s.limit where
  limit_eq := rfl
  depth_le := Nat.le_add_right _ _
  push_refused_iff v := by
    rcases full_or_exists_push s v with hfull | ⟨t, ht⟩
    · rw [respond_push_of_full hfull]
      exact iff_of_true ⟨_, rfl⟩ hfull
    · rw [respond_push_of_ok ht]
      refine iff_of_false ?_ fun hfull ↦ ?_
      · rintro ⟨fault, h⟩
        cases h
      · cases ht.symm.trans (push_eq_error_iff.2 ⟨hfull, rfl⟩)
  push_of_full := respond_push_of_full
  pop_refused_iff fault := by
    rcases s.pop_cases with ⟨hempty, hpop, -⟩ | ⟨v, t, hpos, hpop, -⟩
    · simp [hpop, hempty, eq_comm]
    · simp [hpop, Nat.ne_of_gt hpos]
  pop_value_iff := by
    rcases s.pop_cases with ⟨hempty, hpop, -⟩ | ⟨v, t, hpos, hpop, -⟩
    · simp [hpop, hempty]
    · simp [hpop, hpos]
  pop_of_empty hempty := by
    rcases s.pop_cases with ⟨-, hpop, -⟩ | ⟨v, t, hpos, -⟩
    · rw [hpop]
    · exact absurd hempty (Nat.ne_of_gt hpos)
  push_of_pop v hv := by
    rcases s.pop_cases with ⟨-, hpop, -⟩ | ⟨w, t, -, hpop, -, hback⟩
    · rw [hpop] at hv
      cases hv
    · rw [hpop] at hv ⊢
      cases hv
      exact hback
  popRef_underflow_iff := by
    rcases s.pop_cases with ⟨hempty, -, hpopRef⟩ | ⟨v, t, hpos, -, hpopRef, -⟩
    · exact iff_of_true (by rw [hpopRef]) hempty
    · rw [hpopRef]
      exact iff_of_false (asReference_ne_underflow v) (Nat.ne_of_gt hpos)
  popRef_of_pop v hv := by
    rcases s.pop_cases with ⟨-, hpop, -⟩ | ⟨w, t, -, hpop, hpopRef, -⟩
    · rw [hpop] at hv
      cases hv
    · rw [hpop] at hv
      cases hv
      rw [hpopRef]
  popRef_snd := by
    rcases s.pop_cases with ⟨-, hpop, hpopRef⟩ | ⟨v, t, -, hpop, hpopRef, -⟩
    · rw [hpop, hpopRef]
    · rw [hpop, hpopRef]
  peekAt_value_iff n := by
    rw [respond_peekAt, depth]
    rcases Nat.lt_or_ge n s.slots.length with hlt | hge
    · rw [List.getElem?_eq_getElem hlt]
      exact iff_of_true ⟨_, rfl⟩ hlt
    · rw [List.getElem?_eq_none hge]
      refine iff_of_false ?_ (Nat.not_lt.2 hge)
      rintro ⟨v, h⟩
      cases h
  peekAt_eq_pop n := by
    rw [respondAll_pops, List.range_succ, List.map_append, List.map_singleton,
      List.getLast?_concat]
  peekAt_snd n := by rw [respond_peekAt]
  peekIndexed?_eq := s.peekIndexed?_eq
  peek_eq := rfl
  pushed_iff := s.respondAll_pushes_iff
  pops_of_pushes _ := respondAll_pops_of_pushes

/-- **A stack is a bounded list that gives back last what it got first**, over every run: whatever
limit it is made with, zero included, and whatever it has been asked for since. -/
theorem isLifo_respondAll_empty (limit : Nat) (requests : List StackRequest) :
    ((empty limit).respondAll requests).2.IsLifo limit := by
  have hlimit : ((empty limit).respondAll requests).2.limit = limit := by
    rw [limit_respondAll, limit_empty]
  have hlifo := ((empty limit).respondAll requests).2.isLifo
  rwa [hlimit] at hlifo

/-- A value that is no reference is refused, and is gone. -/
example : ((empty 1).respondAll
    [.popRef, .push (.int 7), .push .null, .peekAt 1, .popRef, .peek, .push .null, .popRef]).1 =
      [.refused .underflow, .pushed, .refused (.overflow 1), .refused .underflow,
        .refused (.primitive .int), .refused .underflow, .pushed, .reference none] := by
  decide

end OperandStack

end HostMethods
