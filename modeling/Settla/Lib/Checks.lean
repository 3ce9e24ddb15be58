import Mathlib.Logic.Basic

/-!
# Chains of checks

A function that runs checks in order is a `do` block in `Except`. These rules turn the fact that it
succeeded into the conjunction of its checks.
-/

namespace Lib

variable {ε α β : Type}

theorem throw_eq (e : ε) : (throw e : Except ε α) = .error e := rfl

theorem pure_eq (a : α) : (pure a : Except ε α) = .ok a := rfl

theorem error_bind (e : ε) (f : α → Except ε β) : (Except.error e >>= f) = .error e := rfl

theorem bind_eq_ok (x : Except ε α) (f : α → Except ε β) (b : β) :
    x >>= f = .ok b ↔ ∃ a, x = .ok a ∧ f a = .ok b := by
  cases x with
  | error e | ok a => simp [bind, Except.bind]

theorem check_eq_ok (c : Prop) [Decidable c] (e : ε) (x : Except ε α) (a : α) :
    (if c then .error e else x) = .ok a ↔ ¬ c ∧ x = .ok a := by
  split <;> simp [*]

end Lib
