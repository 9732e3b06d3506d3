import RunQuery.Store.Window

/-!
The pages into which a result is cut. One after another they hold its records, each once; all but the last are
full, and the tokens of a page are the offsets at its ends.
-/
namespace RunQuery.Window

/-- The page of a result that stands behind `index` pages of `limit` records. -/
def pageAt (limit : Nat) (sorted : List Record) (index : Nat) : Page :=
  page ⟨index * limit, min ((index + 1) * limit) sorted.length⟩ sorted

/-- Number of pages of a result, which has a page even when it is empty. -/
def pageCount (total limit : Nat) : Nat := max 1 ((total + limit - 1) / limit)

section PageAt

variable {limit index : Nat} {sorted : List Record}

theorem take_append_records (limit index : Nat) (sorted : List Record) :
    sorted.take (index * limit) ++ (pageAt limit sorted index).records = sorted.take ((index + 1) * limit) := by
  have cut : (pageAt limit sorted index).records = (sorted.take ((index + 1) * limit)).drop (index * limit) :=
    congrArg (List.drop _) List.take_eq_take_min.symm
  have fewer : index * limit ≤ (index + 1) * limit := Nat.mul_le_mul_right _ (Nat.le_succ index)
  have split := List.take_append_drop (index * limit) (sorted.take ((index + 1) * limit))
  rw [List.take_take, Nat.min_eq_left fewer, ← cut] at split
  exact split

theorem flatMap_records_pageAt (limit count : Nat) (sorted : List Record) :
    ((List.range count).map (pageAt limit sorted)).flatMap Page.records = sorted.take (count * limit) := by
  induction count with
  | zero => simp
  | succ count ih =>
    rw [List.range_succ, List.map_append, List.flatMap_append, ih, ← take_append_records]
    simp

theorem length_records_pageAt (full : (index + 1) * limit ≤ sorted.length) :
    (pageAt limit sorted index).records.length = limit := by
  simp only [pageAt, page, List.length_drop, List.length_take, Nat.min_eq_left full]
  rw [Nat.succ_mul, Nat.add_sub_cancel_left]

theorem next_pageAt_of_lt (more : (index + 1) * limit < sorted.length) :
    (pageAt limit sorted index).next = some (Offset.token ((index + 1) * limit)) := by
  rw [pageAt, Nat.min_eq_left (Nat.le_of_lt more)]
  exact if_pos more

theorem next_pageAt_of_le (past : sorted.length ≤ (index + 1) * limit) : (pageAt limit sorted index).next = none := by
  rw [pageAt, Nat.min_eq_right past]
  exact if_neg (Nat.lt_irrefl _)

theorem previous_pageAt_zero : (pageAt limit sorted 0).previous = none :=
  if_neg (by rw [Nat.zero_mul]; exact Nat.lt_irrefl 0)

theorem previous_pageAt_succ (positive : 0 < limit) :
    (pageAt limit sorted (index + 1)).previous = some (Offset.token ((index + 1) * limit)) :=
  if_pos (Nat.mul_pos (Nat.succ_pos index) positive)

theorem succ_lt_pageCount_iff {total : Nat} (positive : 0 < limit) :
    index + 1 < pageCount total limit ↔ (index + 1) * limit < total := by
  have many : index + 2 ≤ (total + limit - 1) / limit ↔ (index + 2) * limit ≤ total + limit - 1 :=
    Nat.le_div_iff_mul_le positive
  rw [Nat.succ_mul] at many
  rw [pageCount]
  omega

theorem pageCount_pos (total limit : Nat) : 0 < pageCount total limit := Nat.le_max_left ..

/-- Every page but the first one begins inside the result. -/
theorem inside_of_lt_pageCount {total : Nat} (positive : 0 < limit) (counted : index < pageCount total limit) :
    index = 0 ∨ index * limit < total := by
  cases index with
  | zero => exact .inl rfl
  | succ before => exact .inr ((succ_lt_pageCount_iff positive).mp counted)

theorem le_pageCount_mul (total : Nat) (positive : 0 < limit) : total ≤ pageCount total limit * limit := by
  obtain ⟨last, count⟩ := Nat.exists_eq_succ_of_ne_zero (Nat.ne_of_gt (pageCount_pos total limit))
  rw [count]
  exact Nat.not_lt.mp fun less =>
    Nat.lt_irrefl _ (count ▸ (succ_lt_pageCount_iff positive).mpr less)

end PageAt

/-- All pages of a result, the first one first. -/
def pages (limit : Nat) (sorted : List Record) : List Page :=
  (List.range (pageCount sorted.length limit)).map (pageAt limit sorted)

section Pages

variable {limit index : Nat} {sorted : List Record} {page : Page}

@[simp] theorem length_pages (limit : Nat) (sorted : List Record) :
    (pages limit sorted).length = pageCount sorted.length limit := by
  simp [pages]

theorem getElem?_pages (standing : (pages limit sorted)[index]? = some page) :
    index < pageCount sorted.length limit ∧ pageAt limit sorted index = page := by
  obtain ⟨inside, same⟩ := List.getElem?_eq_some_iff.mp standing
  simp only [pages, List.getElem_map, List.getElem_range] at same
  exact ⟨length_pages limit sorted ▸ inside, same⟩

theorem flatMap_records_pages (positive : 0 < limit) (sorted : List Record) :
    (pages limit sorted).flatMap Page.records = sorted := by
  rw [pages, flatMap_records_pageAt]
  exact List.take_of_length_le (le_pageCount_mul _ positive)

theorem length_records_of_more (positive : 0 < limit) (standing : (pages limit sorted)[index]? = some page)
    (more : index + 1 < (pages limit sorted).length) : page.records.length = limit := by
  obtain ⟨-, rfl⟩ := getElem?_pages standing
  rw [length_pages, succ_lt_pageCount_iff positive] at more
  exact length_records_pageAt (Nat.le_of_lt more)

theorem previous_head_pages (head : (pages limit sorted).head? = some page) : page.previous = none := by
  rw [List.head?_eq_getElem?] at head
  obtain ⟨-, rfl⟩ := getElem?_pages head
  exact previous_pageAt_zero

theorem next_getLast_pages (positive : 0 < limit) (last : (pages limit sorted).getLast? = some page) :
    page.next = none := by
  rw [List.getLast?_eq_getElem?, length_pages] at last
  obtain ⟨counted, rfl⟩ := getElem?_pages last
  refine next_pageAt_of_le (Nat.not_lt.mp fun more => ?_)
  have behind := (succ_lt_pageCount_iff positive).mpr more
  omega

end Pages

end RunQuery.Window
