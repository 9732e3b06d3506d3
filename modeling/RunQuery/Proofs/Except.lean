/-!
Results that may be errors. What is done to a result is done to a value that came without an error, and an error
stays one.
-/
namespace RunQuery

variable {ε α β : Type} {x : Except ε α} {b : β}

theorem map_eq_ok {f : α → β} (done : x.map f = .ok b) : ∃ a, x = .ok a ∧ f a = b := by
  cases x with
  | error e => cases done
  | ok a => exact ⟨a, rfl, Except.ok.inj done⟩

theorem map_eq_error_iff {f : α → β} {e : ε} : x.map f = .error e ↔ x = .error e := by
  cases x with
  | error other => simp [Except.map]
  | ok a => simp [Except.map]

theorem bind_eq_ok {f : α → Except ε β} (done : (x >>= f) = .ok b) : ∃ a, x = .ok a ∧ f a = .ok b := by
  cases x with
  | error e => cases done
  | ok a => exact ⟨a, rfl, done⟩

theorem mapError_eq_ok {δ : Type} {f : ε → δ} {a : α} (done : x.mapError f = .ok a) : x = .ok a := by
  cases x with
  | error e => cases done
  | ok b => exact congrArg Except.ok (Except.ok.inj done)

theorem ok_bind (a : α) (f : α → Except ε β) : (Except.ok a >>= f) = f a := rfl

theorem bind_of_ok {f : α → Except ε β} {a : α} (first : x = .ok a) (second : f a = .ok b) :
    (x >>= f) = .ok b := by
  rw [first, ok_bind, second]

/-- What is known of a result is known of a value that was returned. -/
theorem exists_of_toOption {f : α → β} (known : x.toOption.map f = some b) : ∃ a, x = .ok a ∧ f a = b := by
  cases x with
  | error e => cases known
  | ok a => exact ⟨a, rfl, Option.some.inj known⟩

end RunQuery
