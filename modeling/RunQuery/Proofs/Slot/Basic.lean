import RunQuery.Slot.Desk

/-!
What a request comes to, by whether its ticket still counts: a live ticket is that of the latest request
and not cancelled.
-/
namespace RunQuery.Slot

variable {σ α : Type}

theorem isCurrent_iff {slot : Slot σ} {ticket : Ticket} :
    slot.isCurrent ticket = true ↔ slot.generation = ticket.generation := by
  simp [isCurrent]

theorem isCancelled_iff {slot : Slot σ} {ticket : Ticket} :
    slot.isCancelled ticket = true ↔ ticket.generation ∈ slot.cancelled := by
  simp [isCancelled]

@[simp] theorem mapError_ok {ε ε' : Type} (f : ε → ε') (a : α) :
    (Except.ok a : Except ε α).mapError f = .ok a := rfl

@[simp] theorem mapError_error {ε ε' : Type} (f : ε → ε') (e : ε) :
    (Except.error e : Except ε α).mapError f = .error (f e) := rfl

/-- A reply under this ticket is still taken. -/
def IsLive (slot : Slot σ) (ticket : Ticket) : Prop :=
  slot.isCurrent ticket = true ∧ slot.isCancelled ticket = false

theorem isLive_iff {slot : Slot σ} {ticket : Ticket} :
    slot.IsLive ticket ↔ slot.generation = ticket.generation ∧ ticket.generation ∉ slot.cancelled := by
  simp [IsLive, isCurrent, isCancelled]

theorem outcome_live {slot : Slot σ} {ticket : Ticket} (live : slot.IsLive ticket) (reply : Reply α) :
    slot.outcome ticket reply = reply.mapError .store := by
  simp [outcome, live.1, live.2]

theorem outcome_dead {slot : Slot σ} {ticket : Ticket} (dead : ¬ slot.IsLive ticket) (reply : Reply α) :
    slot.outcome ticket reply = .error .cancelled := by
  unfold outcome
  split
  · rfl
  next neither => simp_all [IsLive]

theorem complete_live {slot : Slot σ} {ticket : Ticket} (live : slot.IsLive ticket) (change : σ → σ) :
    slot.complete ticket change = (slot.finish change, true) := by
  simp [complete, live.1, live.2]

/-- The end of a live request puts in what the reply says. -/
theorem conclude_live {slot : Slot σ} {ticket : Ticket} (live : slot.IsLive ticket) (reply : Reply α)
    (apply : α → σ → σ) (fail : FetchError → σ → σ) (settled : σ → σ) :
    slot.conclude ticket (reply.mapError .store) apply fail settled =
      slot.finish (match reply with
        | .ok a => apply a
        | .error causes => fail (.store causes)) := by
  cases reply <;> simp [conclude, completeOrSettle, live.1, live.2]

/-- The end of a cancelled request changes nothing but what waits for it. -/
theorem conclude_cancelled (slot : Slot σ) (ticket : Ticket)
    (apply : α → σ → σ) (fail : FetchError → σ → σ) (settled : σ → σ) :
    slot.conclude ticket (.error .cancelled) apply fail settled =
      if slot.isCurrent ticket then slot.finish settled else slot := by
  simp only [conclude, settle]
  split <;> rfl

/-- A slot at a later moment: requests are only added, and a cancelled one stays cancelled. -/
structure Later (early late : Slot σ) : Prop where
  generation : early.generation ≤ late.generation
  cancelled : early.cancelled ⊆ late.cancelled

theorem Later.refl (slot : Slot σ) : Later slot slot := ⟨Nat.le_refl _, List.Subset.refl _⟩

theorem Later.trans {a b c : Slot σ} (first : Later a b) (second : Later b c) : Later a c :=
  ⟨Nat.le_trans first.generation second.generation, List.Subset.trans first.cancelled second.cancelled⟩

theorem Later.isLive {early late : Slot σ} (later : Later early late) {ticket : Ticket}
    (issued : ticket.generation ≤ early.generation) (live : late.IsLive ticket) : early.IsLive ticket := by
  obtain ⟨newest, uncancelled⟩ := isLive_iff.mp live
  have since := later.generation
  exact isLive_iff.mpr ⟨by omega, fun member => uncancelled (later.cancelled member)⟩

/-- What a reply comes to may be found at one moment and put in at a later one: it is put in as if the
reply had come at the later one. -/
theorem Later.conclude_outcome {early late : Slot σ} (later : Later early late) {ticket : Ticket}
    (issued : ticket.generation ≤ early.generation) (reply : Reply α)
    (apply : α → σ → σ) (fail : FetchError → σ → σ) (settled : σ → σ) :
    late.conclude ticket (early.outcome ticket reply) apply fail settled =
      late.conclude ticket (late.outcome ticket reply) apply fail settled := by
  by_cases live : late.IsLive ticket
  · rw [outcome_live live, outcome_live (later.isLive issued live)]
  · rw [outcome_dead live, conclude_cancelled]
    by_cases alive : early.IsLive ticket
    · rw [outcome_live alive]
      cases current : late.isCurrent ticket with
      | false => cases reply <;> simp [conclude, completeOrSettle, current]
      | true =>
        have cancelled : late.isCancelled ticket = true := by
          simpa [IsLive, current] using live
        cases reply <;> simp [conclude, completeOrSettle, current, cancelled]
    · rw [outcome_dead alive, conclude_cancelled]

end RunQuery.Slot
