/-!
Contract: computations that give a result or an error, taken apart.

Owns:
- the parts of a sequence of two computations, by its outcome;
- outcomes without their errors.

Does not own: any particular computation.
-/

namespace CanonicalLR

variable {Error Value Result : Type}

theorem bind_eq_ok {first : Except Error Value} {next : Value → Except Error Result}
    {result : Result} :
    first >>= next = .ok result ↔ ∃ value, first = .ok value ∧ next value = .ok result := by
  cases first with
  | error cause => simp [bind, Except.bind]
  | ok value => simp [bind, Except.bind]

theorem bind_eq_error {first : Except Error Value} {next : Value → Except Error Result}
    {cause : Error} :
    first >>= next = .error cause ↔
      first = .error cause ∨ ∃ value, first = .ok value ∧ next value = .error cause := by
  cases first with
  | error other => simp [bind, Except.bind]
  | ok value => simp [bind, Except.bind]

theorem map_eq_ok {first : Except Error Value} {function : Value → Result} {result : Result} :
    first.map function = .ok result ↔ ∃ value, first = .ok value ∧ function value = result := by
  cases first with
  | error cause => simp [Except.map]
  | ok value => simp [Except.map]

theorem map_eq_error {first : Except Error Value} {function : Value → Result} {cause : Error} :
    first.map function = .error cause ↔ first = .error cause := by
  cases first with
  | error other => simp [Except.map]
  | ok value => simp [Except.map]

theorem toOption_eq_some {outcome : Except Error Value} {value : Value} :
    outcome.toOption = some value ↔ outcome = .ok value := by
  cases outcome with
  | error cause => simp [Except.toOption]
  | ok value => simp [Except.toOption]

end CanonicalLR
