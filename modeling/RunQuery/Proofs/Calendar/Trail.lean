import RunQuery.Proofs.Calendar.Walk
import RunQuery.Slot.Basic

/-!
Walks against any store. Whatever the replies, a walk asks for no more pages than it may, each time for the one
that the last reply named; it comes to all records of the pages that it has received, or to the failure that it has
met.
-/
namespace RunQuery

namespace Walk

/-- A walk that waits for a page, or what it came to. -/
inductive Stage where
  | waits (walk : Walk)
  | ended (result : Reply (List Record))

namespace Stage

def opened (config : CalendarConfig) (filter : Filter) : Stage :=
  if config.maxPages = 0 then .ended (.ok []) else .waits (start config filter)

def take : Stage → Reply Page → Stage
  | .waits walk, .ok page =>
    match walk.advance page with
    | .inl next => .waits next
    | .inr records => .ended (.ok records)
  | .waits _, .error causes => .ended (.error causes)
  | .ended result, _ => .ended result

/-- The request whose reply is waited for. -/
def asks : Stage → List Request
  | .waits walk => [walk.request]
  | .ended _ => []

def after (stage : Stage) (replies : List (Reply Page)) : Stage := replies.foldl take stage

/-- All requests from this stage on, when they get these replies one after another. -/
def requests (stage : Stage) : List (Reply Page) → List Request
  | [] => stage.asks
  | reply :: rest => stage.asks ++ (stage.take reply).requests rest

theorem take_error (walk : Walk) (causes : List String) :
    (waits walk).take (.error causes) = .ended (.error causes) := rfl

theorem take_inl {walk next : Walk} {page : Page} (advance : walk.advance page = .inl next) :
    (waits walk).take (.ok page) = .waits next := by
  rw [take, advance]

theorem take_inr {walk : Walk} {page : Page} {records : List Record} (advance : walk.advance page = .inr records) :
    (waits walk).take (.ok page) = .ended (.ok records) := by
  rw [take, advance]

theorem after_ended (result : Reply (List Record)) (replies : List (Reply Page)) :
    (ended result).after replies = .ended result := by
  induction replies with
  | nil => rfl
  | cons reply rest ih => exact ih

theorem requests_ended (result : Reply (List Record)) (replies : List (Reply Page)) :
    (ended result).requests replies = [] := by
  induction replies with
  | nil => rfl
  | cons reply rest ih => exact ih

end Stage

/-- The pages that a walk receives which may ask for so many: those that come before a failure, up to the first one
without a next one. -/
def received : Nat → List (Reply Page) → List Page
  | left + 1, .ok page :: rest => page :: if page.next.isSome then received left rest else []
  | _, _ => []

/-- A walk that may ask for so many pages has received all of them. -/
def Whole (left : Nat) (pages : List Page) : Prop := pages.length = left ∨ ∃ page ∈ pages, page.next = none

theorem received_more {page : Page} {token : String} (next : page.next = some token) (left : Nat)
    (rest : List (Reply Page)) : received (left + 1) (.ok page :: rest) = page :: received left rest := by
  rw [received, next, Option.isSome_some, if_pos rfl]

theorem received_last {page : Page} (last : page.next = none) (left : Nat) (rest : List (Reply Page)) :
    received (left + 1) (.ok page :: rest) = [page] := by
  rw [received, last, Option.isSome_none, if_neg Bool.false_ne_true]

theorem received_one (page : Page) (rest : List (Reply Page)) : received 1 (.ok page :: rest) = [page] := by
  simp [received]

theorem received_prefix (left : Nat) (replies : List (Reply Page)) :
    (received left replies).map .ok <+: replies := by
  fun_induction received left replies with
  | case1 left page rest ih =>
    rw [List.map_cons, List.cons_prefix_cons]
    refine ⟨rfl, ?_⟩
    split
    · exact ih
    · exact List.nil_prefix
  | case2 => exact List.nil_prefix

theorem length_received_le (left : Nat) (replies : List (Reply Page)) : (received left replies).length ≤ left := by
  fun_induction received left replies with
  | case1 left page rest ih =>
    rw [List.length_cons]
    split
    · exact Nat.succ_le_succ ih
    · exact Nat.succ_le_succ (Nat.zero_le _)
  | case2 => exact Nat.zero_le _

/-- Only the last page may be without a next one. -/
theorem next_of_received (left : Nat) (replies : List (Reply Page)) :
    ∀ page ∈ (received left replies).dropLast, page.next.isSome = true := by
  fun_induction received left replies with
  | case1 left page rest ih =>
    split
    next more =>
      cases others : received left rest with
      | nil => exact fun _ none => (List.not_mem_nil none).elim
      | cons second others' =>
        rw [others] at ih
        rw [List.dropLast_cons_cons]
        exact List.forall_mem_cons.mpr ⟨more, ih⟩
    next => exact fun _ none => (List.not_mem_nil none).elim
  | case2 => exact fun _ none => (List.not_mem_nil none).elim

theorem whole_cons_iff {page : Page} (next : page.next ≠ none) (left : Nat) (pages : List Page) :
    Whole (left + 1) (page :: pages) ↔ Whole left pages := by
  simp [Whole, next]

theorem whole_singleton {page : Page} {left : Nat} (past : page.next = none ∨ left = 0) :
    Whole (left + 1) [page] := by
  rcases past with none | rfl
  · exact .inr ⟨page, List.mem_singleton_self _, none⟩
  · exact .inl rfl

theorem not_whole_nil (left : Nat) : ¬ Whole (left + 1) [] := by
  simp [Whole]

/-- What is asked for from a stage on, and what the stage comes to, by the pages that its walk receives. -/
structure Account (walk : Walk) (stage : Stage) (replies : List (Reply Page)) (pages : List Page) : Prop where
  requests : stage.requests replies =
    ((walk.cursor :: pages.map fun page => page.next.map Cursor.forward).take (stage.requests replies).length).map
      fun cursor => { walk.request with cursor }
  whole : Whole walk.pagesLeft pages → (stage.requests replies).length = pages.length ∧
    stage.after replies = .ended (.ok (walk.records ++ pages.flatMap Page.records))
  /-- The replies have come to their end, or one of them was a failure. -/
  short : ¬ Whole walk.pagesLeft pages → (stage.requests replies).length = pages.length + 1 ∧
    ((replies = pages.map .ok ∧ ∃ next, stage.after replies = .waits next) ∨
      ∃ causes rest, replies = pages.map .ok ++ .error causes :: rest ∧
        stage.after replies = .ended (.error causes))

section Account

variable {walk : Walk} {left : Nat} {replies rest : List (Reply Page)} {page : Page}

theorem account_unpaged (none : walk.pagesLeft = 0) (replies : List (Reply Page)) :
    Account walk (.ended (.ok walk.records)) replies [] where
  requests := by
    rw [Stage.requests_ended]
    rfl
  whole _ := by
    rw [Stage.requests_ended, Stage.after_ended, List.flatMap_nil, List.append_nil]
    exact ⟨rfl, rfl⟩
  short short := absurd (.inl none.symm) short

theorem account_nil (more : walk.pagesLeft = left + 1) : Account walk (.waits walk) [] [] where
  requests := rfl
  whole := by
    rw [more]
    exact fun whole => absurd whole (not_whole_nil left)
  short _ := ⟨rfl, .inl ⟨rfl, walk, rfl⟩⟩

theorem account_error (more : walk.pagesLeft = left + 1) (causes : List String) (rest : List (Reply Page)) :
    Account walk (.waits walk) (.error causes :: rest) [] where
  requests := by
    rw [Stage.requests, Stage.take_error, Stage.requests_ended]
    rfl
  whole := by
    rw [more]
    exact fun whole => absurd whole (not_whole_nil left)
  short _ := by
    refine ⟨?_, .inr ⟨causes, rest, rfl, Stage.after_ended ..⟩⟩
    rw [Stage.requests, Stage.take_error, Stage.requests_ended]
    rfl

theorem account_last (more : walk.pagesLeft = left + 1) (past : page.next = none ∨ left = 0)
    (rest : List (Reply Page)) : Account walk (.waits walk) (.ok page :: rest) [page] := by
  have taken : (Stage.waits walk).take (.ok page) = .ended (.ok (walk.records ++ page.records)) := by
    refine Stage.take_inr (advance_end (past.imp_right fun none => ?_))
    rw [more, none]
  have requests : (Stage.waits walk).requests (.ok page :: rest) = [walk.request] := by
    rw [Stage.requests, taken, Stage.requests_ended]
    rfl
  constructor
  · rw [requests]
    rfl
  · intro _
    refine ⟨by rw [requests]; rfl, ?_⟩
    rw [Stage.after, List.foldl_cons, taken, List.flatMap_singleton]
    exact Stage.after_ended ..
  · rw [more]
    exact fun short => absurd (whole_singleton past) short

theorem account_next {token : String} {pages : List Page} (more : walk.pagesLeft = left + 2)
    (next : page.next = some token) {later : Walk}
    (goes : later = { walk with
      pagesLeft := left + 1, cursor := some (.forward token), records := walk.records ++ page.records })
    (told : Account later (.waits later) rest pages) : Account walk (.waits walk) (.ok page :: rest) (page :: pages) := by
  subst goes
  have another : walk.pagesLeft - 1 = left + 1 := congrArg (· - 1) more
  have taken := Stage.take_inl (advance_more next another)
  have after : (Stage.waits walk).after (.ok page :: rest) = Stage.after _ rest := congrArg (Stage.after · rest) taken
  have requests : (Stage.waits walk).requests (.ok page :: rest) = walk.request :: Stage.requests _ rest :=
    congrArg (fun stage => [walk.request] ++ Stage.requests stage rest) taken
  have whole : Whole walk.pagesLeft (page :: pages) ↔ Whole (left + 1) pages := by
    rw [more, whole_cons_iff (by rw [next]; nofun)]
  constructor
  · rw [requests, List.length_cons, List.take_succ_cons, List.map_cons, List.map_cons, next]
    exact congrArg (walk.request :: ·) told.requests
  · intro all
    obtain ⟨count, ended⟩ := told.whole (whole.mp all)
    rw [requests, after, List.length_cons, count, ended, List.append_assoc]
    exact ⟨rfl, rfl⟩
  · intro short
    obtain ⟨count, outcome⟩ := told.short (mt whole.mpr short)
    rw [requests, after, List.length_cons, count]
    refine ⟨rfl, outcome.imp ?_ ?_⟩
    · rintro ⟨all, waits⟩
      exact ⟨congrArg (.ok page :: ·) all, waits⟩
    · rintro ⟨causes, rest, failed, ended⟩
      exact ⟨causes, rest, congrArg (.ok page :: ·) failed, ended⟩

/-- Reply by reply, a walk goes on while there is a next page and it may ask for more. -/
theorem account_waits (walk : Walk) (more : walk.pagesLeft ≠ 0) (replies : List (Reply Page)) :
    Account walk (.waits walk) replies (received walk.pagesLeft replies) := by
  induction replies generalizing walk with
  | nil =>
    obtain ⟨left, more⟩ := Nat.exists_eq_succ_of_ne_zero more
    rw [more]
    exact account_nil more
  | cons reply rest ih =>
    obtain ⟨left, more⟩ := Nat.exists_eq_succ_of_ne_zero more
    rw [more]
    -- a page is the last one if it names no next one, or if no other may be asked for
    match reply, left with
    | .error causes, left => exact account_error more causes rest
    | .ok page, 0 =>
      rw [received_one]
      exact account_last more (.inr rfl) rest
    | .ok page, left + 1 =>
      cases next : page.next with
      | none =>
        rw [received_last next]
        exact account_last more (.inl next) rest
      | some token =>
        rw [received_more next]
        exact account_next more next rfl (ih _ (Nat.succ_ne_zero left))

theorem account_opened (config : CalendarConfig) (filter : Filter) (replies : List (Reply Page)) :
    Account (start config filter) (.opened config filter) replies (received config.maxPages.toNat replies) := by
  unfold Stage.opened
  split
  next unpaged =>
    have none : (start config filter).pagesLeft = 0 := congrArg UInt32.toNat unpaged
    have nothing : received config.maxPages.toNat replies = [] :=
      List.eq_nil_of_length_eq_zero (Nat.le_zero.mp (none ▸ length_received_le _ replies))
    rw [nothing]
    exact account_unpaged none replies
  next paged =>
    refine account_waits _ ?_ replies
    simpa [start, ← UInt32.toNat_inj] using paged

/-- A walk asks for no more pages than it may. -/
theorem Account.bounded {stage : Stage} (told : Account walk stage replies (received walk.pagesLeft replies)) :
    (stage.requests replies).length ≤ walk.pagesLeft := by
  have bound := length_received_le walk.pagesLeft replies
  by_cases whole : Whole walk.pagesLeft (received walk.pagesLeft replies)
  · rw [(told.whole whole).1]
    exact bound
  · rw [(told.short whole).1]
    exact Nat.lt_of_le_of_ne bound fun all => whole (.inl all)

/-- A walk has ended when it has got as many replies as it may ask for pages. -/
theorem Account.ends {stage : Stage} (told : Account walk stage replies (received walk.pagesLeft replies))
    (enough : walk.pagesLeft ≤ replies.length) : ∃ result, stage.after replies = .ended result := by
  by_cases whole : Whole walk.pagesLeft (received walk.pagesLeft replies)
  · exact ⟨_, (told.whole whole).2⟩
  · rcases (told.short whole).2 with ⟨all, _⟩ | ⟨causes, _, _, failed⟩
    · have count : replies.length = (received walk.pagesLeft replies).length := by
        rw [all, List.length_map, ← all]
      exact absurd (.inl (Nat.le_antisymm (length_received_le ..) (count ▸ enough))) whole
    · exact ⟨_, failed⟩

end Account

end Walk

end RunQuery
