/-!
# Except — computations that return

A chain of computations that can fail returns only when each of them does, and fails with the first
of them that fails. These lemmas take such a chain apart at its first computation.

- `bind_eq_ok`, `bind_eq_error`: a chain that returns, and one that fails
- `bind_of_ok`, `bind_of_error`: a chain whose first computation returns, or fails
- `toOption_eq_some`: a computation whose failure was dropped
- `mapError_eq_ok_iff`, `mapError_of_error`, `map_eq_ok_iff`, `map_eq_error_iff`: a computation
  whose failure or result was changed
- `exact_of_total`: a computation that does one of the things that are said of it
- `fault?`: what a computation fails with, first link by link
-/

namespace Cadence

variable {ε α β : Type}

theorem bind_eq_ok {x : Except ε α} {f : α → Except ε β} {b : β} (h : x >>= f = .ok b) :
    ∃ a, x = .ok a ∧ f a = .ok b := by
  cases x with
  | error fault => cases h
  | ok a => exact ⟨a, rfl, h⟩

theorem bind_eq_error {x : Except ε α} {f : α → Except ε β} {fault : ε}
    (h : x >>= f = .error fault) :
    x = .error fault ∨ ∃ a, x = .ok a ∧ f a = .error fault := by
  cases x with
  | error fault =>
    cases h
    exact .inl rfl
  | ok a => exact .inr ⟨a, rfl, h⟩

theorem bind_of_ok {x : Except ε α} {f : α → Except ε β} {a : α} (h : x = .ok a) :
    x >>= f = f a := by
  rw [h]
  rfl

theorem bind_of_error {x : Except ε α} {f : α → Except ε β} {fault : ε} (h : x = .error fault) :
    x >>= f = .error fault := by
  rw [h]
  rfl

theorem toOption_eq_some {x : Except ε α} {a : α} (h : x.toOption = some a) : x = .ok a := by
  cases x with
  | error fault => cases h
  | ok b =>
    cases h
    rfl

theorem toOption_eq_some_iff {x : Except ε α} {a : α} : x.toOption = some a ↔ x = .ok a := by
  refine ⟨toOption_eq_some, ?_⟩
  rintro rfl
  rfl

theorem mapError_eq_ok_iff {ε' : Type} {x : Except ε α} {f : ε → ε'} {a : α} :
    x.mapError f = .ok a ↔ x = .ok a := by
  cases x with
  | error fault => exact ⟨nofun, nofun⟩
  | ok b =>
    refine ⟨?_, ?_⟩
    · rintro ⟨⟩
      rfl
    · rintro ⟨⟩
      rfl

theorem mapError_of_error {ε' : Type} {x : Except ε α} {f : ε → ε'} {fault : ε}
    (h : x = .error fault) :
    x.mapError f = .error (f fault) := by
  rw [h]
  rfl

theorem map_eq_ok_iff {x : Except ε α} {f : α → β} {b : β} :
    x.map f = .ok b ↔ ∃ a, x = .ok a ∧ f a = b := by
  cases x <;> simp [Except.map]

theorem map_eq_error_iff {x : Except ε α} {f : α → β} {fault : ε} :
    x.map f = .error fault ↔ x = .error fault := by
  cases x <;> simp [Except.map]

/-- Two relations say exactly what a computation does when it does what they say and one of them
holds. -/
theorem exact_of_total {x : Except ε α} {Returns : α → Prop} {Fails : ε → Prop}
    (hok : ∀ a, Returns a → x = .ok a)
    (herror : ∀ fault, Fails fault → x = .error fault)
    (htotal : (∃ a, Returns a) ∨ ∃ fault, Fails fault) :
    (∀ a, x = .ok a ↔ Returns a) ∧ ∀ fault, x = .error fault ↔ Fails fault := by
  rcases htotal with ⟨b, hb⟩ | ⟨cause, hcause⟩
  · have hx := hok b hb
    refine ⟨fun a => ⟨?_, hok a⟩, fun fault => ⟨?_, herror fault⟩⟩
    · intro h
      cases hx.symm.trans h
      exact hb
    · intro h
      cases hx.symm.trans h
  · have hx := herror cause hcause
    refine ⟨fun a => ⟨?_, hok a⟩, fun fault => ⟨?_, herror fault⟩⟩
    · intro h
      cases hx.symm.trans h
    · intro h
      cases hx.symm.trans h
      exact hcause

/-! ## Failures -/

def fault? : Except ε α → Option ε
  | .error fault => some fault
  | .ok _ => none

theorem fault?_eq_some_iff {x : Except ε α} {fault : ε} :
    fault? x = some fault ↔ x = .error fault := by
  cases x <;> simp [fault?]

theorem fault?_map {x : Except ε α} {f : α → β} : fault? (x.map f) = fault? x := by
  cases x <;> rfl

/-- A chain fails with its first computation, or with the rest when that fails in one way whatever
the first one returns. -/
theorem fault?_bind {x : Except ε α} {f : α → Except ε β} {later : Option ε}
    (h : ∀ a, x = .ok a → fault? (f a) = later) : fault? (x >>= f) = (fault? x).or later := by
  cases x with
  | error fault => rfl
  | ok a => exact h a rfl

end Cadence
