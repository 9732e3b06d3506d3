import RunQuery.Proofs.Slot.Basic
import Mathlib.Data.List.Nodup

/-!
The requests that wait at a desk. Each has a generation of its own, and all but at most one of them are
cancelled: the live one, whose reply is still taken. `Sound` holds at every desk that starts empty, gets a
new request only under a new ticket, and cancels only what it has issued.
-/
namespace RunQuery.Desk

variable {σ ω : Type}

structure Sound (d : Desk σ ω) : Prop where
  superseding : ∀ g < d.slot.generation, g ∈ d.slot.cancelled
  /-- No cancellation runs ahead of the requests. -/
  bounded : ∀ g ∈ d.slot.cancelled, g ≤ d.slot.generation
  issued : ∀ g ∈ d.generations, g ≤ d.slot.generation
  unique : d.generations.Nodup

theorem new_sound (name : String) (state : σ) : (new name state : Desk σ ω).Sound := by
  constructor <;> simp [new, Slot.new, generations]

/-- The waiting request whose reply is still taken. -/
def live? (d : Desk σ ω) : Option (Waiting ω) :=
  (d.find? d.slot.generation).filter fun w => !d.slot.isCancelled w.ticket

theorem find?_some {d : Desk σ ω} {g : Nat} {w : Waiting ω} (found : d.find? g = some w) :
    w ∈ d.waiting ∧ w.ticket.generation = g :=
  ⟨List.mem_of_find?_eq_some found, by simpa using List.find?_some found⟩

theorem find?_eq_none_iff {d : Desk σ ω} {g : Nat} : d.find? g = none ↔ g ∉ d.generations := by
  simp [find?, generations]

theorem live?_eq_some_iff {d : Desk σ ω} {w : Waiting ω} :
    d.live? = some w ↔ d.find? w.ticket.generation = some w ∧ d.slot.IsLive w.ticket := by
  simp only [live?, Option.filter_eq_some_iff, Slot.IsLive, Slot.isCurrent_iff]
  constructor
  · rintro ⟨found, uncancelled⟩
    have number := (find?_some found).2
    exact ⟨number ▸ found, number.symm, by simpa using uncancelled⟩
  · rintro ⟨found, current, uncancelled⟩
    exact ⟨current ▸ found, by simpa using uncancelled⟩

/-- A waiting request is live, or a reply to it comes to nothing. -/
theorem live?_of_find? {d : Desk σ ω} {g : Nat} {w : Waiting ω} (found : d.find? g = some w) :
    d.live? = some w ↔ d.slot.IsLive w.ticket := by
  obtain ⟨_, number⟩ := find?_some found
  rw [live?_eq_some_iff, number]
  exact and_iff_right found

/-- A request that waits is found, and is live if its ticket is. -/
theorem Sound.live?_of_mem {d : Desk σ ω} (sound : d.Sound) {w : Waiting ω} (member : w ∈ d.waiting)
    (live : d.slot.IsLive w.ticket) : d.live? = some w := by
  have waits : w.ticket.generation ∈ d.generations := List.mem_map_of_mem member
  obtain ⟨v, found⟩ := Option.ne_none_iff_exists'.mp (mt find?_eq_none_iff.mp (not_not_intro waits))
  obtain ⟨other, same⟩ := find?_some found
  have one : v = w := List.inj_on_of_nodup_map sound.unique other member same
  exact live?_eq_some_iff.mpr ⟨one ▸ found, live⟩

theorem live?_generation {d : Desk σ ω} {w : Waiting ω} (live : d.live? = some w) :
    d.slot.generation = w.ticket.generation :=
  (Slot.isLive_iff.mp (live?_eq_some_iff.mp live).2).1

/-- The live request waits. -/
theorem mem_of_live? {d : Desk σ ω} {w : Waiting ω} (live : d.live? = some w) : d.slot.generation ∈ d.generations := by
  rw [live?_generation live]
  exact List.mem_map_of_mem (find?_some (live?_eq_some_iff.mp live).1).1

theorem ne_of_dead {d : Desk σ ω} {v w : Waiting ω} (found : d.find? w.ticket.generation = some w)
    (dead : ¬ d.slot.IsLive w.ticket) (live : d.live? = some v) :
    v.ticket.generation ≠ w.ticket.generation := by
  intro same
  obtain ⟨known, alive⟩ := live?_eq_some_iff.mp live
  rw [same, found, Option.some.injEq] at known
  exact dead (known ▸ alive)

theorem ne_of_gone {d : Desk σ ω} {g : Nat} {w : Waiting ω} (gone : d.find? g = none)
    (live : d.live? = some w) : w.ticket.generation ≠ g := by
  rintro rfl
  simp [(live?_eq_some_iff.mp live).1] at gone

theorem live?_of_cancelled {d : Desk σ ω} (cancelled : d.slot.generation ∈ d.slot.cancelled) :
    d.live? = none := by
  rw [live?, Option.filter_eq_none_iff]
  intro w found
  have number := (find?_some found).2
  simpa [Slot.isCancelled, number] using cancelled

theorem Sound.fresh {d : Desk σ ω} (sound : d.Sound) : d.slot.generation + 1 ∉ d.generations := fun member => by
  have old := sound.issued _ member
  omega

theorem find?_drop (d : Desk σ ω) (g k : Nat) :
    (d.drop g).find? k = if k = g then none else d.find? k := by
  simp only [find?, drop, List.find?_filter]
  by_cases same : k = g
  · subst same
    simp
  · rw [if_neg same]
    congr 1
    funext w
    by_cases number : w.ticket.generation = k <;> simp [number, same]

theorem drop_of_notMem {d : Desk σ ω} {g : Nat} (absent : g ∉ d.generations) : d.drop g = d := by
  have all : ∀ w ∈ d.waiting, w.ticket.generation ≠ g := by
    rintro w member rfl
    exact absent (List.mem_map_of_mem member)
  rw [Desk.drop, List.filter_eq_self.mpr fun w member => by simpa using all w member]

theorem find?_await (d : Desk σ ω) (ticket : Ticket) (work : ω) (k : Nat) :
    (d.await ticket work).find? k =
      (d.find? k).or (if ticket.generation = k then some ⟨ticket, work⟩ else none) := by
  simp only [find?, await, List.find?_append, List.find?_cons, List.find?_nil]
  by_cases number : ticket.generation = k <;> simp [number]

theorem find?_resume (d : Desk σ ω) (g : Nat) (work : ω) (k : Nat) :
    (d.resume g work).find? k =
      (d.find? k).map fun w => if w.ticket.generation = g then { w with work } else w := by
  simp only [find?, resume, List.find?_map]
  congr 1
  congr 1
  funext w
  by_cases number : w.ticket.generation = g <;> simp [number]

@[simp] theorem generations_drop (d : Desk σ ω) (g : Nat) :
    (d.drop g).generations = d.generations.filter (· ≠ g) := by
  simp only [generations, drop, List.filter_map]
  rfl

@[simp] theorem generations_await (d : Desk σ ω) (ticket : Ticket) (work : ω) :
    (d.await ticket work).generations = d.generations ++ [ticket.generation] := by
  simp [generations, await]

@[simp] theorem generations_resume (d : Desk σ ω) (g : Nat) (work : ω) :
    (d.resume g work).generations = d.generations := by
  simp only [generations, resume, List.map_map]
  congr 1
  funext w
  simp only [Function.comp_apply]
  split <;> rfl

/-! What the moves of a controller do to the live request. -/

section Moves

variable {d : Desk σ ω}

theorem Sound.with_slot (sound : d.Sound) (slot : Slot σ)
    (generation : slot.generation = d.slot.generation) (cancelled : slot.cancelled = d.slot.cancelled) :
    ({ d with slot } : Desk σ ω).Sound where
  superseding g older := cancelled ▸ sound.superseding g (generation ▸ older)
  bounded g member := generation ▸ sound.bounded g (cancelled ▸ member)
  issued g member := generation ▸ sound.issued g member
  unique := sound.unique

theorem live?_with_slot (d : Desk σ ω) (slot : Slot σ)
    (generation : slot.generation = d.slot.generation) (cancelled : slot.cancelled = d.slot.cancelled) :
    ({ d with slot } : Desk σ ω).live? = d.live? := by
  simp only [live?, find?, Slot.isCancelled, generation, cancelled]

theorem Sound.drop (sound : d.Sound) (g : Nat) : (d.drop g).Sound where
  superseding := sound.superseding
  bounded := sound.bounded
  issued k member := by
    rw [generations_drop] at member
    exact sound.issued k (List.mem_of_mem_filter member)
  unique := by
    rw [generations_drop]
    exact sound.unique.filter _

theorem live?_drop (d : Desk σ ω) (g : Nat) :
    (d.drop g).live? = d.live?.filter fun w => w.ticket.generation ≠ g := by
  ext w
  rw [live?_eq_some_iff, find?_drop, Option.filter_eq_some_iff, live?_eq_some_iff]
  by_cases same : w.ticket.generation = g
  · simp [same]
  · simp [same, Desk.drop]

/-- The desk when a request is done with. -/
def ended (d : Desk σ ω) (w : Waiting ω) (slot : Slot σ) : Desk σ ω :=
  { d.drop w.ticket.generation with slot }

/-- The slot when a request is done with that was cancelled. -/
def settledSlot (d : Desk σ ω) (settled : σ → σ) (w : Waiting ω) : Slot σ :=
  if d.slot.isCurrent w.ticket then d.slot.finish settled else d.slot

theorem mem_waiting_ended {w v : Waiting ω} {slot : Slot σ} (member : v ∈ (d.ended w slot).waiting) :
    v ∈ d.waiting :=
  List.mem_of_mem_filter member

theorem Sound.ended (sound : d.Sound) (w : Waiting ω) (slot : Slot σ)
    (generation : slot.generation = d.slot.generation) (cancelled : slot.cancelled = d.slot.cancelled) :
    (d.ended w slot).Sound :=
  (sound.drop _).with_slot slot generation cancelled

theorem live?_ended {w : Waiting ω} (live : d.live? = some w) (slot : Slot σ)
    (generation : slot.generation = d.slot.generation) (cancelled : slot.cancelled = d.slot.cancelled) :
    (d.ended w slot).live? = none := by
  rw [Desk.ended, live?_with_slot (d.drop _) slot generation cancelled, live?_drop, live]
  simp

theorem settledSlot_generation (d : Desk σ ω) (settled : σ → σ) (w : Waiting ω) :
    (d.settledSlot settled w).generation = d.slot.generation := by
  unfold settledSlot
  split <;> rfl

theorem settledSlot_cancelled (d : Desk σ ω) (settled : σ → σ) (w : Waiting ω) :
    (d.settledSlot settled w).cancelled = d.slot.cancelled := by
  unfold settledSlot
  split <;> rfl

theorem settledSlot_later (d : Desk σ ω) (settled : σ → σ) (w : Waiting ω) :
    Slot.Later d.slot (d.settledSlot settled w) :=
  ⟨Nat.le_of_eq (d.settledSlot_generation settled w).symm,
    fun _ member => d.settledSlot_cancelled settled w ▸ member⟩

theorem settledSlot_state {α : Type} (part : σ → α) (settled : σ → σ)
    (untouched : ∀ s, part (settled s) = part s) (d : Desk σ ω) (w : Waiting ω) :
    part (d.settledSlot settled w).state = part d.slot.state := by
  unfold settledSlot
  split
  · exact untouched _
  · rfl

theorem settledSlot_inFlight {settled : σ → σ} {w : Waiting ω}
    (flying : (d.settledSlot settled w).inFlight = true) : d.slot.inFlight = true := by
  unfold settledSlot at flying
  split at flying
  · simp [Slot.finish] at flying
  · exact flying

theorem Sound.settled (sound : d.Sound) (settled : σ → σ) (w : Waiting ω) :
    (d.ended w (d.settledSlot settled w)).Sound :=
  sound.ended w _ (d.settledSlot_generation settled w) (d.settledSlot_cancelled settled w)

/-- The end of a request that is not live leaves the live one. -/
theorem live?_settled {w : Waiting ω} (found : d.find? w.ticket.generation = some w)
    (dead : ¬ d.slot.IsLive w.ticket) (settled : σ → σ) :
    (d.ended w (d.settledSlot settled w)).live? = d.live? := by
  rw [Desk.ended, live?_with_slot (d.drop _) _ (d.settledSlot_generation settled w)
    (d.settledSlot_cancelled settled w), live?_drop]
  cases live : d.live? with
  | none => rfl
  | some v =>
    simp [ne_of_dead found dead live]

theorem Sound.resume (sound : d.Sound) (g : Nat) (work : ω) : (d.resume g work).Sound where
  superseding := sound.superseding
  bounded := sound.bounded
  issued := (generations_resume d g work).symm ▸ sound.issued
  unique := (generations_resume d g work).symm ▸ sound.unique

theorem live?_resume (d : Desk σ ω) (g : Nat) (work : ω) :
    (d.resume g work).live? =
      d.live?.map fun w => if w.ticket.generation = g then { w with work } else w := by
  have found := find?_resume d g work d.slot.generation
  simp only [live?, Desk.resume] at found ⊢
  rw [found]
  cases d.find? d.slot.generation with
  | none => rfl
  | some w =>
    have ticket : (if w.ticket.generation = g then { w with work } else w).ticket = w.ticket := by
      split <;> rfl
    simp only [Option.map_some, Option.filter_some, ticket]
    cases d.slot.isCancelled w.ticket <;> rfl

theorem Sound.issue (sound : d.Sound) : ({ d with slot := d.slot.issue.1 } : Desk σ ω).Sound where
  superseding g older := by
    by_cases latest : g = d.slot.generation
    · exact latest ▸ List.mem_cons_self
    · exact List.mem_cons_of_mem _ (sound.superseding g (by simp [Slot.issue] at older; omega))
  bounded g member := by
    rcases List.mem_cons.mp member with rfl | member
    · exact Nat.le_succ _
    · exact Nat.le_succ_of_le (sound.bounded g member)
  issued g member := Nat.le_succ_of_le (sound.issued g member)
  unique := sound.unique

theorem Sound.issue_isLive (sound : d.Sound) : d.slot.issue.1.IsLive d.slot.issue.2 := by
  refine Slot.isLive_iff.mpr ⟨rfl, fun member => ?_⟩
  rcases List.mem_cons.mp member with same | early
  · simp [Slot.issue] at same
  · have old := sound.bounded _ early
    simp only [Slot.issue] at old
    omega

theorem live?_issue (sound : d.Sound) : ({ d with slot := d.slot.issue.1 } : Desk σ ω).live? = none := by
  have none : d.find? (d.slot.generation + 1) = none := find?_eq_none_iff.mpr sound.fresh
  exact (congrArg (Option.filter _) none).trans rfl

theorem Sound.await_issue (sound : d.Sound) (work : ω) :
    (({ d with slot := d.slot.issue.1 } : Desk σ ω).await d.slot.issue.2 work).Sound where
  superseding := sound.issue.superseding
  bounded := sound.issue.bounded
  issued g member := by
    rw [generations_await, List.mem_append, List.mem_singleton] at member
    rcases member with before | rfl
    · exact sound.issue.issued g before
    · exact Nat.le_refl _
  unique := by
    rw [generations_await, List.nodup_append]
    refine ⟨sound.unique, List.nodup_singleton _, fun g member k newest => ?_⟩
    have old := sound.issued g member
    rw [List.mem_singleton] at newest
    simp only [newest, Slot.issue]
    omega

theorem live?_await_issue (sound : d.Sound) (work : ω) :
    (({ d with slot := d.slot.issue.1 } : Desk σ ω).await d.slot.issue.2 work).live? =
      some ⟨d.slot.issue.2, work⟩ := by
  have none : d.find? (d.slot.generation + 1) = none := find?_eq_none_iff.mpr sound.fresh
  rw [live?_eq_some_iff, find?_await]
  exact ⟨(congrArg (Option.or · _) none).trans (by simp), sound.issue_isLive⟩

theorem Sound.cancel (sound : d.Sound) : d.cancel.Sound where
  superseding g older := List.mem_cons_of_mem _ (sound.superseding g older)
  bounded g member := by
    rcases List.mem_cons.mp member with rfl | member
    · exact Nat.le_refl _
    · exact sound.bounded g member
  issued := sound.issued
  unique := sound.unique

@[simp] theorem live?_cancel (d : Desk σ ω) : d.cancel.live? = none :=
  live?_of_cancelled List.mem_cons_self

theorem Sound.expire (sound : d.Sound) (g : Nat) : (d.expire g).Sound := by
  unfold Desk.expire
  cases found : d.find? g with
  | none => exact sound
  | some w =>
    refine ⟨fun k older => List.mem_cons_of_mem _ (sound.superseding k older), fun k member => ?_,
      sound.issued, sound.unique⟩
    rcases List.mem_cons.mp member with rfl | member
    · exact sound.issued _ (List.mem_map_of_mem (find?_some found).1)
    · exact sound.bounded k member

theorem expire_frame (d : Desk σ ω) (g : Nat) :
    (d.expire g).slot.state = d.slot.state ∧ (d.expire g).slot.generation = d.slot.generation ∧
    (d.expire g).slot.inFlight = d.slot.inFlight ∧ (d.expire g).waiting = d.waiting := by
  unfold Desk.expire
  split <;> exact ⟨rfl, rfl, rfl, rfl⟩

theorem expire_later (d : Desk σ ω) (g : Nat) : Slot.Later d.slot (d.expire g).slot := by
  unfold Desk.expire
  split
  · exact ⟨Nat.le_refl _, List.subset_cons_self ..⟩
  · exact .refl _

/-- Only the live request can be hit by its own deadline. -/
theorem live?_expire (d : Desk σ ω) (g : Nat) :
    (d.expire g).live? = d.live?.filter fun w => w.ticket.generation ≠ g := by
  ext w
  rw [Option.filter_eq_some_iff, live?_eq_some_iff, live?_eq_some_iff, Desk.expire]
  cases found : d.find? g with
  | none =>
    have other : d.find? w.ticket.generation = some w → w.ticket.generation ≠ g := by
      rintro known rfl
      simp [found] at known
    simp only [decide_eq_true_eq]
    exact ⟨fun live => ⟨live, other live.1⟩, And.left⟩
  | some v =>
    have number := (find?_some found).2
    simp only [Slot.isLive_iff, decide_eq_true_eq, Slot.cancelTicket, Slot.cancelGeneration, number,
      List.mem_cons, not_or]
    exact ⟨fun ⟨known, newest, other, uncancelled⟩ => ⟨⟨known, newest, uncancelled⟩, other⟩,
      fun ⟨⟨known, newest, uncancelled⟩, other⟩ => ⟨known, newest, other, uncancelled⟩⟩

end Moves

/-- All tickets are of one slot, the desk's own. -/
structure Named (name : String) (d : Desk σ ω) : Prop where
  slot : d.slot.name = name
  tickets : ∀ w ∈ d.waiting, w.ticket.slot = name

section Named

variable {name : String} {d : Desk σ ω}

theorem new_named (name : String) (state : σ) : (new name state : Desk σ ω).Named name :=
  ⟨rfl, fun _ member => (List.not_mem_nil member).elim⟩

theorem Named.with_slot (named : d.Named name) (slot : Slot σ) (same : slot.name = d.slot.name) :
    ({ d with slot } : Desk σ ω).Named name :=
  ⟨same.trans named.slot, named.tickets⟩

theorem Named.await_issue (named : d.Named name) (work : ω) :
    (({ d with slot := d.slot.issue.1 } : Desk σ ω).await d.slot.issue.2 work).Named name := by
  refine ⟨named.slot, fun w member => ?_⟩
  rcases List.mem_append.mp member with before | new
  · exact named.tickets w before
  · exact List.mem_singleton.mp new ▸ named.slot

theorem Named.resume (named : d.Named name) (g : Nat) (work : ω) : (d.resume g work).Named name := by
  refine ⟨named.slot, fun w member => ?_⟩
  obtain ⟨v, before, rfl⟩ := List.mem_map.mp member
  split <;> exact named.tickets v before

theorem Named.ended (named : d.Named name) (w : Waiting ω) (slot : Slot σ) (same : slot.name = d.slot.name) :
    (d.ended w slot).Named name :=
  ⟨same.trans named.slot, fun v member => named.tickets v (mem_waiting_ended member)⟩

theorem settledSlot_name (d : Desk σ ω) (settled : σ → σ) (w : Waiting ω) :
    (d.settledSlot settled w).name = d.slot.name := by
  unfold settledSlot
  split <;> rfl

theorem Named.expire (named : d.Named name) (g : Nat) : (d.expire g).Named name := by
  unfold Desk.expire
  split
  · exact ⟨named.slot, named.tickets⟩
  · exact named

end Named

end RunQuery.Desk
