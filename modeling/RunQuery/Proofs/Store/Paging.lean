import RunQuery.Proofs.Store.Memory
import RunQuery.Proofs.Store.Window

/-!
Paging through a store. Who asks for page after page, each behind the one before, comes to an end, and has seen
every record of the result once and in its order; and the token that a page has for its other side leads back to
the very page before it.
-/
namespace RunQuery.Memory

open Window

/-- The pages that a store gives to a request and to the ones that follow it, each with the token to the next page
of the answer before, until an answer has none. -/
inductive Followed : Memory → Request → List Page → Prop where
  | last {m : Memory} {request : Request} {page : Page} (answered : (m.query request).1 = .ok page)
      (ended : page.next = none) : Followed m request [page]
  | more {m : Memory} {request : Request} {page : Page} {token : String} {rest : List Page}
      (answered : (m.query request).1 = .ok page) (goes : page.next = some token)
      (later : Followed (m.query request).2 { request with cursor := some (.forward token) } rest) :
      Followed m request (page :: rest)

theorem Followed.unique {m : Memory} {request : Request} {seen pages : List Page} (first : Followed m request seen)
    (second : Followed m request pages) : seen = pages := by
  induction first generalizing pages with
  | last answered ended =>
    cases second with
    | last again _ =>
      rw [answered] at again
      rw [Except.ok.inj again]
    | more again goes _ =>
      rw [answered] at again
      rw [← Except.ok.inj again, ended] at goes
      cases goes
  | more answered goes _ ih =>
    cases second with
    | last again ended =>
      rw [answered] at again
      rw [← Except.ok.inj again, goes] at ended
      cases ended
    | more again on later =>
      rw [answered] at again
      obtain rfl := Except.ok.inj again
      rw [goes] at on
      obtain rfl := Option.some.inj on
      rw [ih later]

/-- The cursor to a page of a result. -/
def cursorTo (limit index : Nat) : Option Cursor :=
  if index = 0 then none else some (.forward (Offset.token (index * limit)))

section Paging

variable {m : Memory} {filter : Option Filter} {sort : List SortKey} {limit : UInt32} {sorted : List Record}
  {index : Nat}

theorem query_reliable (reliable : m.failures = []) (request : Request) :
    m.query request = (answer m.records request, { m with queries := m.queries + 1 }) := by
  rw [query, reliable]

/-- All that an unlimited query finds is on its one page. -/
theorem query_whole {whole : Page} (succeeds : (m.query ⟨filter, sort, none, none⟩).1 = .ok whole) :
    m.failures = [] ∧ result m.records ⟨filter, sort, none, none⟩ = .ok whole.records := by
  obtain ⟨reliable, answered⟩ := query_eq_ok_iff.mp succeeds
  rw [answer_whole] at answered
  cases found : result m.records ⟨filter, sort, none, none⟩ with
  | error e => simp [found, Except.map] at answered
  | ok sorted =>
    rw [found] at answered
    cases answered
    exact ⟨reliable, rfl⟩

theorem query_forward (reliable : m.failures = [])
    (whole : ∀ cursor, result m.records ⟨filter, sort, some limit, cursor⟩ = .ok sorted)
    (small : sorted.length ≤ 0x10000000000000000) (inside : index = 0 ∨ index * limit.toNat < sorted.length) :
    (m.query ⟨filter, sort, some limit, cursorTo limit.toNat index⟩).1 = .ok (pageAt limit.toNat sorted index) := by
  rw [query_reliable reliable]
  rcases Nat.eq_zero_or_pos index with rfl | later
  · refine (answer_first (whole none) rfl rfl).trans ?_
    rw [pageAt, Nat.zero_mul, Nat.zero_add, Nat.one_mul]
  · have before : index * limit.toNat < sorted.length := inside.resolve_left (Nat.ne_of_gt later)
    have fits := Nat.lt_of_lt_of_le before small
    refine (answer_forward (whole _) rfl (if_neg (Nat.ne_of_gt later)) fits).trans ?_
    rw [pageAt, Nat.min_eq_left (Nat.le_of_lt before), Nat.succ_mul]

/-- The offset at which a page begins is the end of the page before. -/
theorem query_backward (reliable : m.failures = [])
    (whole : ∀ cursor, result m.records ⟨filter, sort, some limit, cursor⟩ = .ok sorted)
    (small : sorted.length ≤ 0x10000000000000000) (inside : (index + 1) * limit.toNat < sorted.length) :
    (m.query ⟨filter, sort, some limit, some (.backward (Offset.token ((index + 1) * limit.toNat)))⟩).1 =
      .ok (pageAt limit.toNat sorted index) := by
  rw [query_reliable reliable]
  refine (answer_backward (whole _) rfl rfl (Nat.lt_of_lt_of_le inside small)).trans ?_
  have start : (index + 1) * limit.toNat - limit.toNat = index * limit.toNat := by
    rw [Nat.succ_mul, Nat.add_sub_cancel]
  rw [pageAt, Nat.min_eq_left (Nat.le_of_lt inside), start]

/-- From any page on, the pages up to the last one follow each other. -/
theorem followed_from (reliable : m.failures = [])
    (whole : ∀ cursor, result m.records ⟨filter, sort, some limit, cursor⟩ = .ok sorted)
    (small : sorted.length ≤ 0x10000000000000000) (positive : 0 < limit.toNat) (left : Nat)
    (count : index + 1 + left = pageCount sorted.length limit.toNat) :
    Followed m ⟨filter, sort, some limit, cursorTo limit.toNat index⟩
      ((List.range' index (left + 1)).map (pageAt limit.toNat sorted)) := by
  induction left generalizing m index with
  | zero =>
    have counted : index < pageCount sorted.length limit.toNat := by omega
    have last : ¬ index + 1 < pageCount sorted.length limit.toNat := by omega
    rw [succ_lt_pageCount_iff positive, Nat.not_lt] at last
    exact .last (query_forward reliable whole small (inside_of_lt_pageCount positive counted))
      (next_pageAt_of_le last)
  | succ left ih =>
    have counted : index < pageCount sorted.length limit.toNat := by omega
    have more : index + 1 < pageCount sorted.length limit.toNat := by omega
    rw [succ_lt_pageCount_iff positive] at more
    refine .more (query_forward reliable whole small (inside_of_lt_pageCount positive counted))
      (next_pageAt_of_lt more) ?_
    rw [query_reliable reliable]
    have rest : index + 1 + 1 + left = pageCount sorted.length limit.toNat := by omega
    exact ih (m := { m with queries := m.queries + 1 }) reliable whole rest

theorem followed_pages (reliable : m.failures = [])
    (whole : ∀ cursor, result m.records ⟨filter, sort, some limit, cursor⟩ = .ok sorted)
    (small : sorted.length ≤ 0x10000000000000000) (positive : 0 < limit.toNat) :
    Followed m ⟨filter, sort, some limit, none⟩ (pages limit.toNat sorted) := by
  obtain ⟨left, count⟩ := Nat.exists_eq_add_one_of_ne_zero (Nat.ne_of_gt (pageCount_pos sorted.length limit.toNat))
  have all : Followed m ⟨filter, sort, some limit, cursorTo limit.toNat 0⟩ _ :=
    followed_from reliable whole small positive left (by omega)
  rwa [← count, ← List.range_eq_range'] at all

end Paging

/-- Where the unlimited query succeeds, the pages of any positive limit that follow each other from the first one on
are determined. There are as many as it takes, and at least one; all but the last are full, and together they are
the unlimited result. Only the first has no token to a page before it and only the last has none to a page behind
it; and at any later time the token to the page before brings back that very page, with both its tokens, as long as
the store holds the same records and nothing fails. The offsets of a store fit into the eight bytes of a token. -/
theorem pages_partition_result {m : Memory} {filter : Option Filter} {sort : List SortKey} {limit : UInt32}
    {whole : Page} (positive : limit ≠ 0) (succeeds : (m.query ⟨filter, sort, none, none⟩).1 = .ok whole)
    (small : whole.records.length ≤ 0x10000000000000000) :
    ∃ pages : List Page,
      (∀ seen, Followed m ⟨filter, sort, some limit, none⟩ seen ↔ seen = pages) ∧
      pages.length = max 1 ((whole.records.length + limit.toNat - 1) / limit.toNat) ∧
      pages.flatMap Page.records = whole.records ∧
      (∀ index page, pages[index]? = some page → index + 1 < pages.length → page.records.length = limit.toNat) ∧
      (∀ page, pages.head? = some page → page.previous = none) ∧
      (∀ page, pages.getLast? = some page → page.next = none) ∧
      ∀ index page next, pages[index]? = some page → pages[index + 1]? = some next →
        ∃ token, next.previous = some token ∧
          ∀ later : Memory, later.records = m.records → later.failures = [] →
            (later.query ⟨filter, sort, some limit, some (.backward token)⟩).1 = .ok page := by
  obtain ⟨reliable, found⟩ := query_whole succeeds
  have limited : 0 < limit.toNat := Nat.pos_of_ne_zero fun zero => positive (UInt32.toNat_inj.mp zero)
  have followed := followed_pages reliable (fun _ => found) small limited
  refine ⟨pages limit.toNat whole.records, fun seen => ⟨fun other => other.unique followed, ?_⟩, length_pages ..,
    flatMap_records_pages limited _, fun index page => length_records_of_more limited, fun page => previous_head_pages,
    fun page => next_getLast_pages limited, ?_⟩
  · rintro rfl
    exact followed
  · intro index page next standing behind
    obtain ⟨-, rfl⟩ := getElem?_pages standing
    obtain ⟨counted, rfl⟩ := getElem?_pages behind
    refine ⟨_, previous_pageAt_succ limited, fun later same reliable => ?_⟩
    exact query_backward reliable (fun _ => same ▸ found) small ((succ_lt_pageCount_iff limited).mp counted)

/-- Of three records, the later ones first, two stand on the first page. -/
theorem pages_partition_result_of_three :
    let run (id : String) (rank : Number) : Record := ⟨id, "run", 1, .map [("rank", .number rank)]⟩
    let first := run "a" ⟨0x3ff0000000000000⟩
    let second := run "b" ⟨0x4000000000000000⟩
    let third := run "c" ⟨0x4008000000000000⟩
    let m := Memory.ofRecords [first, second, third]
    let latest : List SortKey := [⟨"rank", .descending⟩]
    ((2 : UInt32) ≠ 0 ∧ (m.query ⟨none, latest, none, none⟩).1 = .ok ⟨[third, second, first], none, none⟩ ∧
      [third, second, first].length ≤ 0x10000000000000000) ∧
    ∃ pages, Followed m ⟨none, latest, some 2, none⟩ pages ∧ pages.length = 2 ∧
      pages.flatMap Page.records = [third, second, first] := by
  intro run first second third m latest
  have sorted : sortRecords latest [first, second, third] = [third, second, first] := by
    have earlier : SortKey.orderBy latest first second = .gt := rfl
    have later : SortKey.orderBy latest second third = .gt := rfl
    simp [sortRecords, List.mergeSort, List.MergeSort.Internal.splitInTwo, earlier, later]
  have found : (m.query ⟨none, latest, none, none⟩).1 = .ok ⟨[third, second, first], none, none⟩ := by
    rw [query_reliable rfl, answer_whole, result_unfiltered, ← sorted]
    rfl
  have positive : (2 : UInt32) ≠ 0 := by decide
  obtain ⟨pages, followed, length, whole, -⟩ := pages_partition_result positive found (by decide)
  exact ⟨⟨positive, found, by decide⟩, pages, (followed pages).mpr rfl, length.trans (by decide), whole⟩

end RunQuery.Memory
