import RunQuery.Dict

/-!
Keys of dictionaries: those of the pairs that were put in.
-/
namespace RunQuery

theorem Entries.isSome_get?_iff {α : Type u} {key : String} {entries : List (String × α)} :
    (Entries.get? key entries).isSome = true ↔ key ∈ entries.map Prod.fst := by
  induction entries with
  | nil => simp [Entries.get?]
  | cons entry rest ih =>
    by_cases same : entry.1 = key
    · simp [Entries.get?, same]
    · simp [Entries.get?, same, ih, Ne.symm same]

/-- A key after all others goes to the end. -/
theorem Entries.insert_of_all_lt {α : Type u} {key : String} {value : α} {entries : List (String × α)}
    (last : ∀ entry ∈ entries, entry.1 < key) :
    Entries.insert key value entries = entries ++ [(key, value)] := by
  induction entries with
  | nil => rfl
  | cons entry rest ih =>
    have before : entry.1 < key := last entry List.mem_cons_self
    have distinct : key ≠ entry.1 := fun same => absurd (same ▸ before) (String.lt_irrefl _)
    have notBefore : ¬ key < entry.1 := fun after => absurd (String.lt_trans before after) (String.lt_irrefl _)
    have others : ∀ other ∈ rest, other.1 < key := fun other member => last other (List.mem_cons_of_mem _ member)
    rw [Entries.insert, if_neg notBefore, if_neg distinct, ih others]
    rfl

theorem Entries.erase_cons {α : Type u} (key : String) (entry : String × α) (rest : List (String × α)) :
    Entries.erase key (entry :: rest) =
      if entry.1 = key then Entries.erase key rest else entry :: Entries.erase key rest := by
  by_cases gone : entry.1 = key <;> simp [Entries.erase, gone]

theorem Entries.get?_erase {α : Type u} (key other : String) (entries : List (String × α)) :
    Entries.get? other (Entries.erase key entries) = if key = other then none else Entries.get? other entries := by
  induction entries with
  | nil => simp [Entries.erase, Entries.get?]
  | cons entry rest ih =>
    rw [Entries.erase_cons]
    by_cases gone : entry.1 = key
    · rw [if_pos gone, ih, Entries.get?, gone]
      split <;> rfl
    · rw [if_neg gone, Entries.get?, Entries.get?, ih]
      by_cases same : entry.1 = other
      · rw [if_pos same, if_pos same, if_neg (fun own => gone (same.trans own.symm))]
      · rw [if_neg same, if_neg same]

theorem Entries.get?_of_all_ne {α : Type u} {key : String} {entries : List (String × α)}
    (absent : ∀ entry ∈ entries, entry.1 ≠ key) : Entries.get? key entries = none := by
  rw [← Option.not_isSome_iff_eq_none, Entries.isSome_get?_iff, List.mem_map]
  rintro ⟨entry, member, same⟩
  exact absent entry member same

theorem Entries.mem_of_get? {α : Type u} {key : String} {value : α} {entries : List (String × α)}
    (found : Entries.get? key entries = some value) : (key, value) ∈ entries := by
  induction entries with
  | nil => cases found
  | cons entry rest ih =>
    rw [Entries.get?] at found
    split at found
    next same =>
      cases found
      exact same ▸ List.mem_cons_self
    next => exact List.mem_cons_of_mem entry (ih found)

/-- No key comes before the first one. -/
theorem Entries.Sorted.not_lt_head {α : Type u} {key : String} {entry : String × α} {rest : List (String × α)}
    (sorted : Entries.Sorted (entry :: rest)) (known : (Entries.get? key (entry :: rest)).isSome = true) :
    ¬ key < entry.1 := by
  intro before
  obtain ⟨other, member, rfl⟩ := List.mem_map.mp (Entries.isSome_get?_iff.mp known)
  rcases List.mem_cons.mp member with rfl | member
  · exact String.lt_irrefl _ before
  · exact String.lt_irrefl _ (String.lt_trans before ((List.pairwise_cons.mp sorted).1 other member))

/-- Sorted entries are told by what they answer. -/
theorem Entries.Sorted.ext {α : Type u} {early late : List (String × α)} (sorted : Entries.Sorted early)
    (sortedLate : Entries.Sorted late) (same : ∀ key, Entries.get? key early = Entries.get? key late) :
    early = late := by
  induction early generalizing late with
  | nil =>
    cases late with
    | nil => rfl
    | cons entry rest => simpa [Entries.get?] using same entry.1
  | cons first others ih =>
    cases late with
    | nil => simpa [Entries.get?] using same first.1
    | cons entry rest =>
      have key : first.1 = entry.1 := by
        have known (entry : String × α) (rest : List (String × α)) :
            (Entries.get? entry.1 (entry :: rest)).isSome = true := by simp [Entries.get?]
        have here := sortedLate.not_lt_head (same first.1 ▸ known first others)
        have there := sorted.not_lt_head (same entry.1 ▸ known entry rest)
        exact String.le_antisymm (String.not_lt.mp there) (String.not_lt.mp here)
      have value : first.2 = entry.2 := by simpa [Entries.get?, key] using same first.1
      obtain ⟨least, sorted⟩ := List.pairwise_cons.mp sorted
      obtain ⟨leastLate, sortedLate⟩ := List.pairwise_cons.mp sortedLate
      rw [Prod.ext key value, ih sorted sortedLate fun other => ?_]
      by_cases own : entry.1 = other
      · subst own
        rw [Entries.get?_of_all_ne fun e member same => String.lt_irrefl _ (same ▸ key ▸ least e member),
          Entries.get?_of_all_ne fun e member same => String.lt_irrefl _ (same ▸ leastLate e member)]
      · simpa [Entries.get?, key, own] using same other

/-- A key of sorted entries stands after those before it. -/
theorem Entries.Sorted.all_lt {α : Type u} {early late : List (String × α)} {entry : String × α}
    (sorted : Entries.Sorted (early ++ entry :: late)) : ∀ other ∈ early, other.1 < entry.1 :=
  fun other member => (List.pairwise_append.mp sorted).2.2 other member entry List.mem_cons_self

namespace Dict

variable {α : Type u}

theorem ext {d e : Dict α} (same : d.entries = e.entries) : d = e := by
  cases d
  cases e
  cases same
  rfl

theorem get?_erase (d : Dict α) (key other : String) :
    (d.erase key).get? other = if key = other then none else d.get? other :=
  Entries.get?_erase ..

theorem isEmpty_iff {d : Dict α} : d.isEmpty = true ↔ d = empty := by
  rw [isEmpty, List.isEmpty_iff]
  exact ⟨fun none => ext none, congrArg entries⟩

theorem mem_keys_iff {d : Dict α} {key : String} : key ∈ d.keys ↔ (d.get? key).isSome = true :=
  Entries.isSome_get?_iff.symm

theorem mem_keys_insert {d : Dict α} {key other : String} {value : α} :
    other ∈ (d.insert key value).keys ↔ key = other ∨ other ∈ d.keys := by
  rw [mem_keys_iff, get?_insert, mem_keys_iff]
  by_cases same : key = other <;> simp [same]

theorem mem_keys_foldl {pairs : List (String × α)} {d : Dict α} {key : String} :
    key ∈ (pairs.foldl (fun d pair => d.insert pair.1 pair.2) d).keys ↔
      key ∈ d.keys ∨ key ∈ pairs.map Prod.fst := by
  induction pairs generalizing d with
  | nil => simp
  | cons pair rest ih =>
    rw [List.foldl_cons, ih, mem_keys_insert, List.map_cons, List.mem_cons, eq_comm (a := key)]
    exact or_assoc.trans or_left_comm

theorem mem_keys_ofList {pairs : List (String × α)} {key : String} :
    key ∈ (ofList pairs).keys ↔ key ∈ pairs.map Prod.fst := by
  rw [ofList, mem_keys_foldl]
  simp [keys, empty]

theorem mem_foldl {pairs : List (String × α)} {d : Dict α} {entry : String × α}
    (member : entry ∈ (pairs.foldl (fun d pair => d.insert pair.1 pair.2) d).entries) :
    entry ∈ d.entries ∨ entry ∈ pairs := by
  induction pairs generalizing d with
  | nil => exact .inl member
  | cons pair rest ih =>
    rcases ih member with before | later
    · rcases Entries.mem_insert before with rfl | old
      · exact .inr List.mem_cons_self
      · exact .inl old
    · exact .inr (List.mem_cons_of_mem pair later)

@[simp] theorem ofList_concat (pairs : List (String × α)) (pair : String × α) :
    ofList (pairs ++ [pair]) = (ofList pairs).insert pair.1 pair.2 :=
  List.foldl_append ..

/-- What stands in the dictionary of a list of pairs is one of them. -/
theorem mem_ofList {pairs : List (String × α)} {entry : String × α} (member : entry ∈ (ofList pairs).entries) :
    entry ∈ pairs :=
  (mem_foldl member).resolve_left (List.not_mem_nil)

theorem get?_foldl_of_notMem {pairs : List (String × α)} {d : Dict α} {key : String}
    (absent : key ∉ pairs.map Prod.fst) :
    (pairs.foldl (fun d pair => d.insert pair.1 pair.2) d).get? key = d.get? key := by
  induction pairs generalizing d with
  | nil => rfl
  | cons pair rest ih =>
    rw [List.map_cons, List.mem_cons, not_or] at absent
    rw [List.foldl_cons, ih absent.2, get?_insert, if_neg (Ne.symm absent.1)]

theorem get?_ofList {pairs : List (String × α)} {key : String} {value : α} (unique : (pairs.map Prod.fst).Nodup)
    (member : (key, value) ∈ pairs) : (ofList pairs).get? key = some value := by
  obtain ⟨early, late, rfl⟩ := List.append_of_mem member
  rw [List.map_append, List.map_cons] at unique
  have last := (List.nodup_cons.mp (List.nodup_append.mp unique).2.1).1
  rw [ofList, List.foldl_append, List.foldl_cons, get?_foldl_of_notMem last, get?_insert, if_pos rfl]

theorem nodup_keys (d : Dict α) : d.keys.Nodup := by
  refine List.pairwise_map.mpr (d.sorted.imp fun {first second} before same => ?_)
  rw [same] at before
  exact String.lt_irrefl _ before

/-- Of a list of pairs with distinct keys, all are kept, in the order of their keys. -/
theorem perm_ofList {pairs : List (String × α)} (unique : (pairs.map Prod.fst).Nodup) :
    (ofList pairs).entries.Perm pairs := by
  have distinct {entries : List (String × α)} (unique : (entries.map Prod.fst).Nodup) : entries.Nodup :=
    List.Pairwise.of_map Prod.fst (fun _ _ apart same => apart (congrArg Prod.fst same)) unique
  refine (List.perm_ext_iff_of_nodup (distinct (ofList pairs).nodup_keys) (distinct unique)).mpr fun entry => ?_
  exact ⟨mem_ofList, fun member => Entries.mem_of_get? (get?_ofList unique member)⟩

/-- Of pairs with distinct keys, each has its way with its own key. -/
theorem get?_foldl {pairs : List (String × α)} {d : Dict α} {key : String} (unique : (pairs.map Prod.fst).Nodup) :
    (pairs.foldl (fun d pair => d.insert pair.1 pair.2) d).get? key = (Entries.get? key pairs).or (d.get? key) := by
  induction pairs generalizing d with
  | nil => rfl
  | cons pair rest ih =>
    rw [List.map_cons, List.nodup_cons] at unique
    rw [List.foldl_cons, ih unique.2, get?_insert, Entries.get?]
    by_cases same : pair.1 = key
    · have absent : Entries.get? key rest = none := by
        rw [← Option.not_isSome_iff_eq_none, Entries.isSome_get?_iff, ← same]
        exact unique.1
      rw [if_pos same, if_pos same, absent]
      rfl
    · rw [if_neg same, if_neg same]

theorem get?_union (d e : Dict α) (key : String) : (d.union e).get? key = (e.get? key).or (d.get? key) :=
  get?_foldl e.nodup_keys

/-- Dictionaries are told by what they answer. -/
theorem ext_get? {d e : Dict α} (same : ∀ key, d.get? key = e.get? key) : d = e :=
  ext (d.sorted.ext e.sorted same)

theorem union_assoc (d e f : Dict α) : (d.union e).union f = d.union (e.union f) :=
  ext_get? fun key => by simp only [get?_union, Option.or_assoc]

end Dict

theorem mem_sortedTexts {texts : List String} {text : String} : text ∈ sortedTexts texts ↔ text ∈ texts := by
  rw [sortedTexts, Dict.mem_keys_ofList, List.map_map]
  simp

theorem pairwise_sortedTexts (texts : List String) : (sortedTexts texts).Pairwise fun a b => a < b :=
  List.pairwise_map.mpr (Dict.ofList (texts.map fun text => (text, ()))).sorted

theorem sortedTexts_eq_nil_iff {texts : List String} : sortedTexts texts = [] ↔ texts = [] := by
  simp only [List.eq_nil_iff_forall_not_mem, mem_sortedTexts]

end RunQuery
