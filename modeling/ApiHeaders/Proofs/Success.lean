/-!
# Steps that may fail

What the result of a computation says about the steps that it is made of.

## Main statements

* `bind_eq_ok`, `map_eq_ok` and `mapError_eq_ok` say when a step followed by another one, by a
  function or by another wording of its error succeeds.
* `map_eq_error` and `mapError_eq_error` say when a step followed by a function, or by another
  wording of its error, fails.
-/

namespace ApiHeaders

variable {ε ε' α β : Type} {x : Except ε α} {y : α} {z : β} {e : ε}

theorem bind_eq_ok {f : α → Except ε β} : x.bind f = .ok z ↔ ∃ y, x = .ok y ∧ f y = .ok z := by
  cases x <;> simp [Except.bind]

theorem map_eq_ok {f : α → β} : x.map f = .ok z ↔ ∃ y, x = .ok y ∧ f y = z := by
  cases x <;> simp [Except.map]

theorem map_eq_error {f : α → β} : x.map f = .error e ↔ x = .error e := by
  cases x <;> simp [Except.map]

theorem mapError_eq_ok {f : ε → ε'} : x.mapError f = .ok y ↔ x = .ok y := by
  cases x with
  | error e => exact ⟨nofun, nofun⟩
  | ok a => exact ⟨fun h => congrArg Except.ok (Except.ok.inj h),
      fun h => congrArg Except.ok (Except.ok.inj h)⟩

theorem mapError_eq_error {f : ε → ε'} {e' : ε'} :
    x.mapError f = .error e' ↔ ∃ e, x = .error e ∧ f e = e' := by
  constructor
  · intro h
    cases x with
    | error e => exact ⟨e, rfl, Except.error.inj h⟩
    | ok a => cases h
  · rintro ⟨e, rfl, rfl⟩
    rfl

end ApiHeaders
