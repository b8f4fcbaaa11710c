import ApiHeaders.Error
import ApiHeaders.Warning

/-!
# Results with warnings

A computation that can fail warns about what it meets on the way, also when it fails later on.

## Main definitions

* `Logged` is a result together with the warnings that came before it.
* `Logged.traverse` runs a computation for each element of a list, in order.
-/

namespace ApiHeaders

/-- A result and the warnings that came before it. -/
structure Logged (α : Type u) where
  warnings : List Warning
  result : Except Error α

namespace Logged

/-- A value without warnings. -/
protected def pure (a : α) : Logged α := ⟨[], .ok a⟩

/-- Goes on with a value. An error ends the computation; the warnings stay. -/
protected def bind (x : Logged α) (f : α → Logged β) : Logged β :=
  match x.result with
  | .ok a => ⟨x.warnings ++ (f a).warnings, (f a).result⟩
  | .error e => ⟨x.warnings, .error e⟩

instance : Monad Logged where
  pure := Logged.pure
  bind := Logged.bind

def warn (w : Warning) : Logged Unit := ⟨[w], .ok ()⟩

def ofExcept (x : Except Error α) : Logged α := ⟨[], x⟩

theorem bind_ok {x : Logged α} {a : α} (h : x.result = .ok a) (f : α → Logged β) :
    x.bind f = ⟨x.warnings ++ (f a).warnings, (f a).result⟩ := by simp [Logged.bind, h]

theorem bind_error {x : Logged α} {e : Error} (h : x.result = .error e) (f : α → Logged β) :
    x.bind f = ⟨x.warnings, .error e⟩ := by simp [Logged.bind, h]

/-- Runs `f` on each element in order and collects the values. -/
def traverse (f : α → Logged β) : List α → Logged (List β)
  | [] => pure []
  | a :: as => do
    let b ← f a
    let bs ← traverse f as
    return b :: bs

end Logged

end ApiHeaders
