import RunQuery.Proofs.Except
import RunQuery.Proofs.Store.Memory
import Mathlib.Data.List.Induction

/-!
The whole history of a memory store. What it holds is decided by the records that were put in: for each id the last
of them, in the order in which the ids first came. Queries change nothing of it, whether they are answered or not;
each of them takes one failure off the queue if one is waiting, whatever it asks for, and is counted.
-/
namespace RunQuery.Memory

/-- What is done with a store. -/
inductive Event where
  | upsert (record : Record)
  | failNext (message : String)
  | query (request : Request)

def Event.record? : Event → Option Record
  | .upsert record => some record
  | _ => none

def Event.message? : Event → Option String
  | .failNext message => some message
  | _ => none

def Event.request? : Event → Option Request
  | .query request => some request
  | _ => none

def step (m : Memory) : Event → Memory
  | .upsert record => m.upsert record
  | .failNext message => m.failNext message
  | .query request => (m.query request).2

def reply? (m : Memory) (event : Event) : Option (Except StoreError Page) :=
  event.request?.map fun request => (m.query request).1

/-- The store after a history, with the replies to the queries in it. -/
def run (m : Memory) : List Event → Memory × List (Except StoreError Page)
  | [] => (m, [])
  | event :: rest => (((m.step event).run rest).1, (m.reply? event).toList ++ ((m.step event).run rest).2)

def injection? : Except StoreError Page → Option String
  | .error (.injected message) => some message
  | _ => none

theorem injection?_eq_some_iff {reply : Except StoreError Page} {message : String} :
    injection? reply = some message ↔ reply = .error (.injected message) := by
  rcases reply with (_ | _ | _ | _) | _ <;> simp [injection?]

section Contents

variable {record : Record} {records upserted : List Record}

/-- What a store is to hold of the records that were put in. -/
structure Kept (upserted records : List Record) : Prop where
  distinct : (records.map Record.id).Nodup
  order : records.map Record.id = (upserted.map Record.id).eraseDups
  latest : ∀ r, r ∈ records ↔ (upserted.filter (·.id = r.id)).getLast? = some r

theorem Kept.none : Kept [] [] where
  distinct := List.nodup_nil
  order := rfl
  latest _ := by simp

theorem mem_upsertInto_iff (distinct : (records.map Record.id).Nodup) {r : Record} :
    r ∈ upsertInto record records ↔ r = record ∨ r ∈ records ∧ r.id ≠ record.id := by
  induction records with
  | nil => simp [upsertInto]
  | cons first rest ih =>
    rw [List.map_cons, List.nodup_cons] at distinct
    rw [upsertInto]
    split
    next same =>
      have apart : r ∈ rest → r.id ≠ record.id := fun inside equal =>
        distinct.1 (same ▸ equal ▸ List.mem_map_of_mem inside)
      have replaced : r = first → r.id = record.id := fun equal => equal ▸ same
      rw [List.mem_cons, List.mem_cons]
      tauto
    next other =>
      have kept : r = first → r.id ≠ record.id := fun equal => equal ▸ other
      rw [List.mem_cons, List.mem_cons, ih distinct.2]
      tauto

theorem eraseDups_concat {α : Type} [BEq α] [LawfulBEq α] (l : List α) (a : α) :
    (l ++ [a]).eraseDups = if a ∈ l then l.eraseDups else l.eraseDups ++ [a] := by
  rw [List.eraseDups_append, List.removeAll]
  by_cases member : a ∈ l <;> simp [member, List.eraseDups_cons]

theorem Kept.upsertInto (kept : Kept upserted records) (record : Record) :
    Kept (upserted ++ [record]) (Memory.upsertInto record records) where
  distinct := ids_upsertInto kept.distinct
  order := by
    rw [map_id_upsertInto, List.map_append, List.map_singleton, eraseDups_concat, kept.order]
    simp only [List.mem_eraseDups]
  latest r := by
    rw [mem_upsertInto_iff kept.distinct, List.filter_append, kept.latest]
    by_cases own : record.id = r.id
    · simp [own, eq_comm]
    · have other : r ≠ record := fun same => own (same ▸ rfl)
      simp [own, Ne.symm own, other]

/-- What becomes of a list of records when others are put in, one after the other. -/
def putAll (records : List Record) : List Record → List Record :=
  List.foldl (fun held record => Memory.upsertInto record held) records

theorem putAll_append (records earlier later : List Record) :
    putAll records (earlier ++ later) = putAll (putAll records earlier) later :=
  List.foldl_append

theorem kept_putAll (upserted : List Record) : Kept upserted (putAll [] upserted) := by
  induction upserted using List.reverseRecOn with
  | nil => exact .none
  | append_singleton earlier record ih =>
    rw [putAll_append]
    exact ih.upsertInto record

theorem ofRecords_eq (initial : List Record) : ofRecords initial = ⟨putAll [] initial, [], 0⟩ := by
  induction initial using List.reverseRecOn with
  | nil => rfl
  | append_singleton earlier record ih =>
    rw [ofRecords] at ih
    rw [ofRecords, List.foldl_append, ih, putAll_append]
    rfl

end Contents

/-- No error of an answer is a failure that was asked for. -/
theorem injection?_answer (records : List Record) (request : Request) : injection? (answer records request) = none := by
  rw [answer, result]
  cases Filter.validate (request.filter.getD ⟨none, .empty⟩) with
  | error e => rfl
  | ok _ =>
    cases selectRecords (request.filter.getD ⟨none, .empty⟩).predicate (request.filter.getD ⟨none, .empty⟩).params
        records with
    | error e => rfl
    | ok selected =>
      let sorted := sortRecords request.sort selected
      show injection? ((Window.of sorted.length (request.limit.elim sorted.length UInt32.toNat)
        request.cursor).mapError .token >>= fun window => .ok (window.page sorted)) = none
      cases Window.of sorted.length (request.limit.elim sorted.length UInt32.toNat) request.cursor <;> rfl

/-- A query is answered with the oldest failure, and with none if no failure waits. -/
theorem injection?_query (m : Memory) (request : Request) : injection? (m.query request).1 = m.failures.head? := by
  rcases m with ⟨records, _ | ⟨message, failures⟩, queries⟩
  · exact injection?_answer records request
  · rfl

section Run

variable {m : Memory}

/-- What each event does to a store: a record is put in, a failure is queued, or a query takes the oldest failure. -/
theorem step_eq (m : Memory) (event : Event) :
    m.step event =
      ⟨putAll m.records event.record?.toList,
       (event.request?.elim m.failures fun _ => m.failures.tail) ++ event.message?.toList,
       m.queries + event.request?.toList.length⟩ := by
  rcases m with ⟨records, failures, queries⟩
  cases event with
  | upsert record => simp [step, upsert, putAll, Event.record?, Event.request?, Event.message?]
  | failNext message => simp [step, failNext, putAll, Event.record?, Event.request?, Event.message?]
  | query request => cases failures <;> simp [step, query, putAll, Event.record?, Event.request?, Event.message?]

/-- A failure that an event takes off the queue is what the event is answered with. -/
theorem failures_step (m : Memory) (event : Event) :
    (m.reply? event).toList.filterMap injection? ++ (m.step event).failures =
      m.failures ++ event.message?.toList := by
  rw [step_eq, reply?, ← List.append_assoc]
  cases event.request? with
  | none => rfl
  | some request =>
    have taken : [(m.query request).1].filterMap injection? = m.failures.head?.toList := by
      rw [List.filterMap_cons, injection?_query]
      cases m.failures.head? <;> rfl
    have whole : m.failures.head?.toList ++ m.failures.tail = m.failures := by
      cases m.failures <;> rfl
    exact congrArg (· ++ event.message?.toList) (taken ▸ whole)

theorem run_append (first second : List Event) :
    m.run (first ++ second) =
      (((m.run first).1.run second).1, (m.run first).2 ++ ((m.run first).1.run second).2) := by
  induction first generalizing m with
  | nil => rfl
  | cons event rest ih => simp [run, ih]

theorem records_run (events : List Event) :
    (m.run events).1.records = putAll m.records (events.filterMap Event.record?) := by
  induction events generalizing m with
  | nil => rfl
  | cons event rest ih =>
    rw [run, ih, step_eq, List.filterMap_cons]
    cases event.record? <;> rfl

theorem queries_run (events : List Event) :
    (m.run events).1.queries = m.queries + (events.filterMap Event.request?).length := by
  induction events generalizing m with
  | nil => rfl
  | cons event rest ih =>
    rw [run, ih, step_eq, List.filterMap_cons]
    cases event.request? with
    | none => rfl
    | some request => exact Nat.add_right_comm m.queries 1 _

theorem length_replies_run (events : List Event) :
    (m.run events).2.length = (events.filterMap Event.request?).length := by
  induction events generalizing m with
  | nil => rfl
  | cons event rest ih =>
    rw [run, List.length_append, ih, reply?, List.filterMap_cons]
    cases event.request? <;> simp [Nat.add_comm]

/-- No failure is lost and none comes twice: those that were met, and those that still wait, are those that waited
before and those that were asked for. -/
theorem failures_run (events : List Event) :
    (m.run events).2.filterMap injection? ++ (m.run events).1.failures =
      m.failures ++ events.filterMap Event.message? := by
  induction events generalizing m with
  | nil => simp [run]
  | cons event rest ih =>
    have message : (event :: rest).filterMap Event.message? = event.message?.toList ++ rest.filterMap Event.message? := by
      rw [List.filterMap_cons]
      cases event.message? <;> rfl
    rw [run, List.filterMap_append, List.append_assoc, ih, message, ← List.append_assoc, ← List.append_assoc, failures_step]

theorem snd_query (m : Memory) (request : Request) :
    (m.query request).2 = { m with failures := m.failures.tail, queries := m.queries + 1 } := by
  rcases m with ⟨records, _ | ⟨message, failures⟩, queries⟩ <;> rfl

end Run

/-- What a store is after any history, and how it answers the query that comes then. Its records stand in the order
in which their ids first came, each id once, and each record is the last that was put in under its id; queries have
no part in that. The failures that queries met, in order, and those that still wait are those that were asked for. Queries
are counted one by one, whatever they come to. The next query fails with the oldest failure if one waits, and
otherwise with none; it takes this failure off the queue, is counted, and changes nothing else. -/
theorem history_decides_store (initial : List Record) (events : List Event) :
    let done := (ofRecords initial).run events
    Kept (initial ++ events.filterMap Event.record?) done.1.records ∧
      done.2.filterMap injection? ++ done.1.failures = events.filterMap Event.message? ∧
      done.1.queries = (events.filterMap Event.request?).length ∧
      done.2.length = (events.filterMap Event.request?).length ∧
      ∀ request later, ∃ reply,
        ((ofRecords initial).run (events ++ .query request :: later)).2[done.1.queries]? = some reply ∧
        (∀ message, reply = .error (.injected message) ↔ done.1.failures.head? = some message) ∧
        (done.1.failures = [] → reply = answer done.1.records request) ∧
        ((ofRecords initial).run (events ++ [.query request])).1 =
          { done.1 with failures := done.1.failures.tail, queries := done.1.queries + 1 } := by
  intro done
  have counted : done.1.queries = (events.filterMap Event.request?).length := by
    rw [queries_run, ofRecords_eq, Nat.zero_add]
  have replied : done.2.length = (events.filterMap Event.request?).length := length_replies_run events
  refine ⟨?_, ?_, counted, replied, fun request later => ⟨(done.1.query request).1, ?_, ?_, ?_, ?_⟩⟩
  · have held : done.1.records = putAll [] (initial ++ events.filterMap Event.record?) := by
      rw [records_run, ofRecords_eq, putAll_append]
    exact held ▸ kept_putAll _
  · rw [failures_run, ofRecords_eq, List.nil_append]
  · rw [run_append, counted, ← replied, List.getElem?_append_right (Nat.le_refl _), Nat.sub_self]
    rfl
  · intro message
    rw [← injection?_eq_some_iff, injection?_query]
  · intro none
    rw [query, none]
  · rw [run_append]
    exact snd_query done.1 request

end RunQuery.Memory
