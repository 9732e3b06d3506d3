import RunQuery.Calendar.Walk
import RunQuery.Proofs.Store.Memory
import RunQuery.Proofs.Store.Window

/-!
Walks over the pages of a memory store. After some pages a walk holds as many of the matching records, from the
first one on, as there are on full pages, and its cursor points behind them.
-/
namespace RunQuery.Walk

theorem advance_more {walk : Walk} {page : Page} {token : String} {left : Nat} (next : page.next = some token)
    (more : walk.pagesLeft - 1 = left + 1) :
    walk.advance page = .inl { walk with
      pagesLeft := left + 1, cursor := some (.forward token), records := walk.records ++ page.records } := by
  rw [advance, next, more]

theorem advance_end {walk : Walk} {page : Page} (past : page.next = none ∨ walk.pagesLeft - 1 = 0) :
    walk.advance page = .inr (walk.records ++ page.records) := by
  unfold advance
  split
  next token left some more => rcases past with none | zero <;> simp_all
  next => rfl

/-- Number of records on so many full pages. -/
def reach (config : CalendarConfig) (pages : Nat) : Nat := pages * config.pageLimit.toNat

theorem reach_succ (config : CalendarConfig) (pages : Nat) :
    reach config (pages + 1) = reach config pages + config.pageLimit.toNat :=
  Nat.succ_mul ..

theorem reach_le {config : CalendarConfig} {few many : Nat} (le : few ≤ many) : reach config few ≤ reach config many :=
  Nat.mul_le_mul_right _ le

variable (config : CalendarConfig) (filter : Filter) (matched : List Record)

/-- The walk when it has seen some pages of the matching records, and goes on. -/
def after (pages : Nat) : Walk where
  filter := filter
  limit := config.pageLimit
  pagesLeft := config.maxPages.toNat - pages
  cursor := if pages = 0 then none else some (.forward (Offset.token (reach config pages)))
  records := matched.take (reach config pages)

theorem after_zero : after config filter matched 0 = start config filter := by
  simp [after, start, reach]

/-- A walk that has seen some pages may see another one, and has not come to the end of the matching records. -/
structure Goes (pages : Nat) : Prop where
  within : pages < config.maxPages.toNat
  inside : pages = 0 ∨ reach config pages < matched.length

/-- The page that follows those that a walk has seen. -/
def nextPage (pages : Nat) : Page :=
  Window.page ⟨reach config pages, min (reach config (pages + 1)) matched.length⟩ matched

variable {config filter matched} {pages : Nat}

theorem Goes.le (goes : Goes config matched pages) : reach config pages ≤ matched.length := by
  rcases goes.inside with rfl | inside
  · rw [reach, Nat.zero_mul]
    exact Nat.zero_le _
  · exact Nat.le_of_lt inside

/-- No offset in a walk is too large for its token. -/
theorem Goes.fits (goes : Goes config matched pages) : reach config pages < 0x10000000000000000 := by
  have few : pages ≤ 0xffffffff := by
    have bound := config.maxPages.toNat_lt
    have within := goes.within
    omega
  have small : config.pageLimit.toNat ≤ 0xffffffff := by
    have bound := config.pageLimit.toNat_lt
    omega
  exact Nat.lt_of_le_of_lt (Nat.mul_le_mul few small) (by decide)

theorem query_after {m : Memory} (yields : m.Yields filter matched) (goes : Goes config matched pages) :
    (m.query (after config filter matched pages).request).1 = .ok (nextPage config matched pages) := by
  rw [Memory.query, yields.failures]
  show Memory.answer m.records _ = _
  by_cases first : pages = 0
  · subst first
    refine (Memory.answer_first (yields.result _ _) rfl rfl).trans ?_
    rw [nextPage, reach_succ, reach, Nat.zero_mul, Nat.zero_add]
    rfl
  · have cursor : (after config filter matched pages).request.cursor =
        some (.forward (Offset.token (reach config pages))) := if_neg first
    refine (Memory.answer_forward (yields.result _ _) rfl cursor goes.fits).trans ?_
    rw [nextPage, Nat.min_eq_left goes.le, reach_succ]
    rfl

theorem records_nextPage (pages : Nat) :
    matched.take (reach config pages) ++ (nextPage config matched pages).records =
      matched.take (reach config (pages + 1)) :=
  Window.take_append_records ..

theorem next_nextPage_of_lt (more : reach config (pages + 1) < matched.length) :
    (nextPage config matched pages).next = some (Offset.token (reach config (pages + 1))) :=
  Window.next_pageAt_of_lt more

theorem next_nextPage_of_le (past : matched.length ≤ reach config (pages + 1)) :
    (nextPage config matched pages).next = none :=
  Window.next_pageAt_of_le past

/-- A walk goes on while there are matching records and pages left, and ends with what it could reach. -/
theorem advance_after (filter : Filter) (goes : Goes config matched pages) :
    (Goes config matched (pages + 1) ∧ (after config filter matched pages).advance (nextPage config matched pages) =
      .inl (after config filter matched (pages + 1))) ∨
    (after config filter matched pages).advance (nextPage config matched pages) =
      .inr (matched.take (reach config config.maxPages.toNat)) := by
  have within := goes.within
  have left : (after config filter matched pages).pagesLeft - 1 = config.maxPages.toNat - (pages + 1) :=
    Nat.sub_sub ..
  have gathered : (after config filter matched pages).records ++ (nextPage config matched pages).records =
      matched.take (reach config (pages + 1)) := records_nextPage pages
  by_cases past : matched.length ≤ reach config (pages + 1)
  · right
    rw [advance_end (.inl (next_nextPage_of_le past)), gathered, List.take_of_length_le past,
      List.take_of_length_le (Nat.le_trans past (reach_le within))]
  · have more : reach config (pages + 1) < matched.length := Nat.lt_of_not_le past
    by_cases last : pages + 1 < config.maxPages.toNat
    · left
      have another : config.maxPages.toNat - (pages + 1) = (config.maxPages.toNat - (pages + 2)) + 1 := by omega
      refine ⟨⟨last, .inr more⟩, ?_⟩
      rw [advance_more (next_nextPage_of_lt more) (left.trans another), gathered, ← another]
      rfl
    · right
      have all : config.maxPages.toNat = pages + 1 := by omega
      have none : (after config filter matched pages).pagesLeft - 1 = 0 := by omega
      rw [advance_end (.inr none), gathered, all]

end RunQuery.Walk
