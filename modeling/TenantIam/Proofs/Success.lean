/-!
# Checks in a row

Operations check one thing after another, and the first check that fails ends them. They succeed
exactly when every check succeeds; the lemmas here take a success apart into those of its checks.
-/

namespace TenantIam

variable {ε δ α β : Type}

/-- Two steps succeed when the first does and then the second. -/
theorem bind_eq_ok_iff {first : Except ε α} {second : α → Except ε β} {b : β} :
    (first >>= second) = .ok b ↔ ∃ a, first = .ok a ∧ second a = .ok b := by
  cases first <;> simp [bind, Except.bind]

/-- A step behind a guard succeeds when the guard lets it pass. -/
theorem guard_eq_ok_iff {bad : Prop} [Decidable bad] {error : ε} {skipped : β → Except ε α}
    {next : Except ε α} {a : α} :
    (if bad then throw error >>= skipped else next) = .ok a ↔ ¬ bad ∧ next = .ok a := by
  by_cases h : bad <;> simp [h, throw, throwThe, MonadExceptOf.throw, bind, Except.bind]

theorem pure_eq_ok_iff {a b : α} : (pure a : Except ε α) = .ok b ↔ a = b := by
  simp [pure, Except.pure]

theorem mapError_eq_ok_iff {f : ε → δ} {result : Except ε α} {a : α} :
    result.mapError f = .ok a ↔ result = .ok a := by
  cases result with
  | error e =>
      constructor
      · intro h
        cases h
      · intro h
        cases h
  | ok b =>
      show (Except.ok b : Except δ α) = .ok a ↔ _
      rw [Except.ok.injEq, Except.ok.injEq]

theorem toOption_eq_some_iff {result : Except ε α} {a : α} :
    result.toOption = some a ↔ result = .ok a := by
  cases result <;> simp [Except.toOption]

theorem exists_error_iff {result : Except ε α} :
    (∃ error, result = .error error) ↔ ¬ ∃ value, result = .ok value := by
  cases result <;> simp

end TenantIam
