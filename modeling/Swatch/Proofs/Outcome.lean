/-
Module: Swatch.Proofs.Outcome
Purpose: Outcomes without their errors.
Main exports:
  toOption_eq_some, error?_eq_some, toOption_bind, eq_ok_of_toOption, bind_eq_ok, bind_eq_error,
  mapError_bind, mapError_eq_ok, mapError_eq_error, map_eq_ok
-/
namespace Swatch

/-!
### Results

Errors name places and quote the source, so two runs that fail on the same item may fail with
different errors.  What they have in common is whether there is a result, and which.
-/

theorem toOption_eq_some {ε α : Type} {x : Except ε α} {a : α} :
    x.toOption = some a ↔ x = .ok a := by
  cases x <;> simp [Except.toOption]

/-- The error of an outcome. -/
def error? {ε α : Type} : Except ε α → Option ε
  | .ok _ => none
  | .error e => some e

theorem error?_eq_some {ε α : Type} {x : Except ε α} {e : ε} :
    error? x = some e ↔ x = .error e := by
  cases x <;> simp [error?]

theorem toOption_bind {ε α β : Type} (x : Except ε α) (f : α → Except ε β) :
    (x >>= f).toOption = x.toOption.bind fun a => (f a).toOption := by
  cases x with
  | ok a => rfl
  | error e => rfl

/-- What one of two outcomes with the same result has, the other has as well. -/
theorem eq_ok_of_toOption {ε δ α : Type} {x : Except ε α} {y : Except δ α} {a : α}
    (same : x.toOption = y.toOption) (result : x = .ok a) : y = .ok a := by
  rw [← toOption_eq_some, ← same, toOption_eq_some]
  exact result

/-- What ends well ends well at each step. -/
theorem bind_eq_ok {ε α β : Type} {x : Except ε α} {f : α → Except ε β} {b : β} :
    x >>= f = .ok b ↔ ∃ a, x = .ok a ∧ f a = .ok b := by
  cases x with
  | ok a => simp [bind, Except.bind]
  | error e => simp [bind, Except.bind]

/-- What fails does so at one of its steps. -/
theorem bind_eq_error {ε α β : Type} {x : Except ε α} {f : α → Except ε β} {e : ε} :
    x >>= f = .error e ↔ x = .error e ∨ ∃ a, x = .ok a ∧ f a = .error e := by
  cases x with
  | ok a => simp [bind, Except.bind]
  | error d => simp [bind, Except.bind]

/-- Errors are renamed at each step. -/
theorem mapError_bind {ε δ α β : Type} (rename : ε → δ) (x : Except ε α) (f : α → Except ε β) :
    (x >>= f).mapError rename = x.mapError rename >>= fun a => (f a).mapError rename := by
  cases x with
  | ok a => rfl
  | error e => rfl

/-- A renaming concerns errors only. -/
theorem mapError_eq_ok {ε δ α : Type} {rename : ε → δ} {x : Except ε α} {a : α} :
    x.mapError rename = .ok a ↔ x = .ok a := by
  cases x with
  | ok b =>
      show Except.ok b = .ok a ↔ Except.ok b = .ok a
      rw [Except.ok.injEq, Except.ok.injEq]
  | error e => exact iff_of_false nofun nofun

theorem mapError_eq_error {ε δ α : Type} {rename : ε → δ} {x : Except ε α} {d : δ} :
    x.mapError rename = .error d ↔ ∃ e, x = .error e ∧ rename e = d := by
  cases x with
  | ok a => exact iff_of_false nofun fun ⟨e, same, _⟩ => nomatch same
  | error e =>
      show Except.error (rename e) = .error d ↔ _
      simp

theorem map_eq_ok {ε α β : Type} {x : Except ε α} {f : α → β} {b : β} :
    x.map f = .ok b ↔ ∃ a, x = .ok a ∧ f a = b := by
  cases x with
  | ok a => simp [Except.map]
  | error e => simp [Except.map]

end Swatch
