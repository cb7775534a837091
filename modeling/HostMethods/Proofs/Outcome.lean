/-!
# Outcomes

Steps that can fail are often followed by a step that only repacks what they gave. The first two
facts take the second step away again, once for each way in which the whole can have gone.

Two programs that do the same on different data are compared by their outcomes
(`Except.Related`): they fail alike, or what they give is related.
-/

namespace HostMethods.Except

variable {ε α β : Type} {x : Except ε α} {f : α → β}

/-! ### Mapped outcomes -/

/-- A mapped outcome fails as the outcome itself does. -/
theorem eq_error_of_map {e : ε} (h : x.map f = .error e) : x = .error e := by
  cases x with
  | error e' =>
    cases h
    rfl
  | ok a => cases h

/-- A mapped result comes from a result. -/
theorem exists_of_map_eq_ok {b : β} (h : x.map f = .ok b) : ∃ a, x = .ok a ∧ f a = b := by
  cases x with
  | error e => cases h
  | ok a => exact ⟨a, rfl, Except.ok.inj h⟩

/-! ### Related outcomes -/

/-- Both outcomes are the same failure, or they are results that are related. -/
inductive Related (R : α → β → Prop) : Except ε α → Except ε β → Prop
  | error (e : ε) : Related R (.error e) (.error e)
  | ok {a : α} {b : β} (h : R a b) : Related R (.ok a) (.ok b)

end HostMethods.Except
