import RunQuery.CommandLine.Query
import RunQuery.Proofs.Predicate.Conjoin
import RunQuery.Proofs.Text.Parts

/-!
Filters of a command line. Each word becomes one comparison with a parameter whose name ends in the index of the
word, so that no two of them meet, whatever fields they name. What is read of all words is then their conjunction.
-/
namespace RunQuery.CommandLine

section Reading

/-- A word that is no filter: there is no mark in it, or nothing but blanks before the mark, where `!=` is looked for
before `=`. -/
def Malformed (raw : List Char) : Prop :=
  '=' ∉ raw ∨ ∃ field value, (∀ c ∈ field, Text.isBlank c = true) ∧
    (raw = field ++ '!' :: '=' :: value ∨ raw = field ++ '=' :: value ∧ ¬ ['!', '='] <:+: raw)

theorem notMem_of_blank {field : List Char} {mark : Char} (visible : Text.isBlank mark = false)
    (blank : ∀ c ∈ field, Text.isBlank c = true) : mark ∉ field := fun member =>
  Bool.false_ne_true (visible.symm.trans (blank mark member))

theorem cut?_equals_eq_none_iff {raw : List Char} : Text.cut? ['='] raw = none ↔ '=' ∉ raw := by
  rw [Text.cut?_eq_none_iff (List.cons_ne_nil _ _), List.singleton_infix_iff]

/-- What is read of a word that is a filter. -/
theorem filterParts?_of_not_malformed {raw : List Char} (formed : ¬ Malformed raw) :
    ∃ field operation value, filterParts? raw = some (field, operation, value) ∧ Text.trim field ≠ [] := by
  rw [filterParts?]
  cases double : Text.cut? ['!', '='] raw with
  | some parts =>
    refine ⟨parts.1, .neq, parts.2, rfl, fun blank => formed (.inr ⟨parts.1, parts.2, ?_, .inl ?_⟩)⟩
    · exact Text.trim_eq_nil_iff.mp blank
    · exact Text.eq_of_cut? double
  | none =>
    have absent := (Text.cut?_eq_none_iff (List.cons_ne_nil _ _)).mp double
    cases single : Text.cut? ['='] raw with
    | none => exact absurd (.inl (cut?_equals_eq_none_iff.mp single)) formed
    | some parts =>
      refine ⟨parts.1, .eq, parts.2, rfl, fun blank => formed (.inr ⟨parts.1, parts.2, ?_, .inr ⟨?_, absent⟩⟩)⟩
      · exact Text.trim_eq_nil_iff.mp blank
      · exact Text.eq_of_cut? single

/-- What is read of a malformed word, if anything, has no field. -/
theorem Malformed.blank {raw field value : List Char} {operation : Operation} (malformed : Malformed raw)
    (parts : filterParts? raw = some (field, operation, value)) : Text.trim field = [] := by
  rw [filterParts?] at parts
  rcases malformed with absent | ⟨first, rest, blank, rfl | ⟨whole, single⟩⟩
  · have double : Text.cut? ['!', '='] raw = none :=
      (Text.cut?_eq_none_iff (List.cons_ne_nil _ _)).mpr fun inside => absent (inside.subset (by simp))
    rw [double, cut?_equals_eq_none_iff.mpr absent] at parts
    cases parts
  · have double : Text.cut? ['!', '='] (first ++ '!' :: '=' :: rest) = some (first, rest) :=
      Text.cut?_append (notMem_of_blank (by decide) blank) rest
    rw [double] at parts
    cases parts
    exact Text.trim_eq_nil_iff.mpr blank
  · have one : Text.cut? ['='] raw = some (first, rest) :=
      whole ▸ Text.cut?_append (notMem_of_blank (by decide) blank) rest
    rw [(Text.cut?_eq_none_iff (List.cons_ne_nil _ _)).mpr single, one] at parts
    cases parts
    exact Text.trim_eq_nil_iff.mpr blank

end Reading

/-- A comparison with a parameter of its own. -/
structure Clause where
  location : String
  operation : Operation
  name : String
  value : Value

namespace Clause

def leaf (c : Clause) : Predicate := .compare ⟨c.location, c.operation, .bind c.name⟩

def filter (c : Clause) : Filter := (Filter.ofPredicate c.leaf).withParam c.name c.value

end Clause

/-- The clause of a field, an operation and a value as a word gives them, at an index. -/
def Clause.ofParts (field : List Char) (operation : Operation) (value : List Char) (index : Nat) : Clause where
  location := String.ofList (Text.trim field)
  operation := operation
  name := bindName (Text.trim field) index
  value := literal (String.ofList (Text.trim value))

theorem filterOf_of_parts {raw : String} {field value : List Char} {operation : Operation}
    (parts : filterParts? raw.toList = some (field, operation, value)) (present : Text.trim field ≠ []) (index : Nat) :
    filterOf raw index = .ok (Clause.ofParts field operation value index).filter := by
  simp only [filterOf, parts]
  rw [if_neg (by simpa using present)]
  rfl

/-- A word that is not malformed stands for one clause, whose parameter has the index of the word. -/
theorem filterOf_of_not_malformed {raw : String} (formed : ¬ Malformed raw.toList) (index : Nat) :
    ∃ (c : Clause) (field : List Char), filterOf raw index = .ok c.filter ∧ c.name = bindName field index := by
  obtain ⟨field, operation, value, parts, present⟩ := filterParts?_of_not_malformed formed
  exact ⟨.ofParts field operation value index, Text.trim field, filterOf_of_parts parts present index, rfl⟩

theorem filterOf_of_malformed {raw : String} (malformed : Malformed raw.toList) (index : Nat) :
    ∃ e, filterOf raw index = .error e := by
  rw [filterOf]
  cases parts : filterParts? raw.toList with
  | none => exact ⟨_, rfl⟩
  | some found =>
    have blank := malformed.blank parts
    exact ⟨.noField raw, if_pos (by simp [blank])⟩

/-- An index can be read off the name of its parameter, since digits follow the last underscore in it. -/
theorem index_of_bindName {field other : List Char} {i j : Nat} (same : bindName field i = bindName other j) :
    i = j := by
  have digits (n : Nat) : '_' ∉ (toString n).toList := fun member =>
    absurd (Text.isDigit_of_mem_numeral member) (by decide)
  have texts := congrArg String.toList same
  simp only [bindName, String.toList_append, String.toList_ofList, List.append_assoc] at texts
  apply Text.numeral_injective
  -- A longer first part would put the underscore of the other name among the digits.
  have numbers {between : List Char} {m n : Nat}
      (rest : "_".toList ++ (toString m).toList = between ++ ("_".toList ++ (toString n).toList)) :
      (toString m).toList = (toString n).toList := by
    cases between with
    | nil => exact List.append_cancel_left rest
    | cons c between =>
      have below : (toString m).toList = between ++ '_' :: (toString n).toList := (List.cons.inj rest).2
      exact absurd (below ▸ List.mem_append_right _ List.mem_cons_self) (digits m)
  rcases List.append_eq_append_iff.mp texts with ⟨between, -, rest⟩ | ⟨between, -, rest⟩
  · exact numbers rest
  · exact (numbers rest).symm

section Joined

variable {clauses : List Clause} {c : Clause} {f : Filter}

theorem Clause.get?_params (c : Clause) (name : String) :
    c.filter.params.get? name = if c.name = name then some c.value else none :=
  Dict.get?_insert ..

theorem Clause.validate (c : Clause) : c.filter.validate = .ok () := by
  refine Filter.validate_eq_ok_iff.mpr fun p standing name member => ?_
  cases standing
  obtain rfl : name = c.name := List.mem_singleton.mp member
  rw [Dict.contains, c.get?_params, if_pos rfl]
  rfl

theorem Clause.evaluate_eq (c : Clause) (r : Record) :
    c.filter.evaluate r = .ok (c.operation.holds (r.locate c.location) c.value) := by
  have bound : (Operand.bind c.name).resolve c.filter.params r = .ok c.value := by
    rw [Operand.resolve, c.get?_params, if_pos rfl]
  exact congrArg (Except.map _) bound

theorem Clause.evaluate (c : Clause) (r : Record) : c.filter.evaluate r = .ok (c.filter.selects r) := by
  rw [Filter.selects, c.evaluate_eq]

/-- A filter that is the conjunction of some clauses, with a parameter for each of them. -/
structure Joined (clauses : List Clause) (f : Filter) : Prop where
  leaves : ∃ p, f.predicate = some p ∧ p.leaves = clauses.map Clause.leaf
  bound : ∀ name, f.params.get? name = (clauses.find? (·.name = name)).map Clause.value
  judged : ∀ r, f.evaluate r = .ok (clauses.all (·.filter.selects r))

theorem Joined.selects (joined : Joined clauses f) (r : Record) :
    f.selects r = clauses.all (·.filter.selects r) := by
  rw [Filter.selects, joined.judged]

/-- A filter of clauses judges every record. -/
theorem Joined.evaluate (joined : Joined clauses f) (r : Record) : f.evaluate r = .ok (f.selects r) := by
  rw [joined.selects, joined.judged]

theorem Joined.single (c : Clause) : Joined [c] c.filter where
  leaves := ⟨c.leaf, rfl, rfl⟩
  bound name := by
    rw [c.get?_params, List.find?_cons]
    by_cases same : c.name = name <;> simp [same]
  judged r := by rw [c.evaluate, List.all_cons, List.all_nil, Bool.and_true]

/-- What the filter names is named by a clause. -/
theorem Joined.mem_names (joined : Joined clauses f) {p : Predicate} (standing : f.predicate = some p) {name : String}
    (member : name ∈ p.bindNames) : name ∈ clauses.map Clause.name := by
  obtain ⟨q, same, leaves⟩ := joined.leaves
  obtain rfl : q = p := Option.some.inj (same.symm.trans standing)
  obtain ⟨leaf, inside, named⟩ := Predicate.mem_bindNames.mp member
  obtain ⟨d, held, rfl⟩ := List.mem_map.mp (leaves ▸ inside)
  exact Option.some.inj named ▸ List.mem_map_of_mem held

/-- The parameter of a clause captures nothing of a filter that does not know its name. -/
theorem Joined.uncaptured (joined : Joined clauses f) (fresh : ∀ d ∈ clauses, d.name ≠ c.name) :
    Filter.Uncaptured f c.filter := by
  intro p standing name member known
  obtain ⟨d, held, named⟩ := List.mem_map.mp (joined.mem_names standing member)
  have own : c.name = name := by
    rw [Dict.contains, c.get?_params] at known
    by_contra other
    simp [other] at known
  exact absurd (named.trans own.symm) (fresh d held)

theorem Joined.both (joined : Joined clauses f) (fresh : ∀ d ∈ clauses, d.name ≠ c.name) :
    Joined (clauses ++ [c]) (Filter.both f c.filter) where
  leaves := by
    obtain ⟨p, standing, leaves⟩ := joined.leaves
    have all : (Filter.both f c.filter).predicate.elim [] Predicate.leaves = (clauses ++ [c]).map Clause.leaf := by
      rw [Filter.both, Filter.leaves_conjoinPredicates, standing, Option.elim_some, leaves, List.map_append]
      rfl
    cases joint : (Filter.both f c.filter).predicate with
    | none => simp [joint] at all
    | some q => exact ⟨q, rfl, by rw [← all, joint, Option.elim_some]⟩
  bound name := by
    show (f.params.union c.filter.params).get? name = _
    rw [Dict.get?_union, c.get?_params, joined.bound, List.find?_append]
    by_cases own : c.name = name
    · have absent : clauses.find? (·.name = name) = none :=
        List.find?_eq_none.mpr fun d member => by simpa [own] using fresh d member
      simp [own, absent]
    · simp [own]
  judged r := by
    rw [Filter.evaluate_both c.validate (joined.uncaptured fresh), joined.judged, c.evaluate, List.all_append]
    cases clauses.all (·.filter.selects r) <;> simp

/-- The filter of a navigator that some clauses were added to. -/
def Stands (clauses : List Clause) (filter : Option Filter) : Prop :=
  (clauses = [] → filter = none) ∧ (clauses ≠ [] → ∃ f, filter = some f ∧ Joined clauses f)

theorem Stands.setFilter {nav : Navigator} (stands : Stands clauses nav.filter)
    (fresh : ∀ d ∈ clauses, d.name ≠ c.name) : Stands (clauses ++ [c]) (nav.setFilter c.filter).filter := by
  refine ⟨fun empty => absurd empty (by simp), fun _ => ?_⟩
  show ∃ f, Filter.conjoin nav.filter (some c.filter) = some f ∧ _
  cases clauses with
  | nil =>
    rw [stands.1 rfl]
    exact ⟨c.filter, rfl, .single c⟩
  | cons first rest =>
    obtain ⟨f, standing, joined⟩ := stands.2 (List.cons_ne_nil _ _)
    rw [standing]
    exact ⟨_, rfl, joined.both fresh⟩

/-- Each clause has the name of its place. -/
def Numbered (clauses : List Clause) : Prop :=
  ∀ i c, clauses[i]? = some c → ∃ field, c.name = bindName field i

theorem Numbered.index (numbered : Numbered clauses) {i j : Nat} {d : Clause} (first : clauses[i]? = some c)
    (second : clauses[j]? = some d) (same : c.name = d.name) : i = j := by
  obtain ⟨field, named⟩ := numbered i c first
  obtain ⟨other, alike⟩ := numbered j d second
  exact index_of_bindName (named.symm.trans (same.trans alike))

theorem Numbered.append (numbered : Numbered clauses) {field : List Char}
    (named : c.name = bindName field clauses.length) : Numbered (clauses ++ [c]) := by
  intro i d found
  rcases Nat.lt_trichotomy i clauses.length with before | rfl | after
  · exact numbered i d (List.getElem?_append_left before ▸ found)
  · obtain rfl : c = d := by simpa using found
    exact ⟨field, named⟩
  · rw [List.getElem?_eq_none (by simpa [Nat.succ_le_iff] using after)] at found
    cases found

theorem Numbered.fresh (numbered : Numbered (clauses ++ [c])) : ∀ d ∈ clauses, d.name ≠ c.name := by
  intro d member same
  obtain ⟨i, inside, rfl⟩ := List.mem_iff_getElem.mp member
  have early : (clauses ++ [c])[i]? = some clauses[i] := by
    rw [List.getElem?_append_left inside, List.getElem?_eq_getElem inside]
  have late : (clauses ++ [c])[clauses.length]? = some c := List.getElem?_concat_length ..
  exact Nat.ne_of_lt inside (numbered.index early late same)

theorem Numbered.find? (numbered : Numbered clauses) {i : Nat} (here : clauses[i]? = some c) :
    clauses.find? (·.name = c.name) = some c := by
  cases found : clauses.find? (·.name = c.name) with
  | none =>
    have other := List.find?_eq_none.mp found c (List.mem_of_getElem? here)
    simp at other
  | some d =>
    obtain ⟨j, there⟩ := List.mem_iff_getElem?.mp (List.mem_of_find?_eq_some found)
    have same : d.name = c.name := by simpa using List.find?_some found
    obtain rfl := numbered.index there here same
    exact there.symm.trans here

theorem Numbered.nodup (numbered : Numbered clauses) : (clauses.map Clause.name).Nodup := by
  refine List.pairwise_map.mpr (List.pairwise_iff_getElem.mpr fun i j first second before same => ?_)
  exact Nat.ne_of_lt before
    (numbered.index (List.getElem?_eq_getElem first) (List.getElem?_eq_getElem second) same)

/-- The parameters are those of the clauses. -/
theorem Joined.mem_keys_iff (joined : Joined clauses f) {name : String} :
    name ∈ f.params.keys ↔ name ∈ clauses.map Clause.name := by
  rw [Dict.mem_keys_iff, joined.bound, Option.isSome_map, List.find?_isSome, List.mem_map]
  simp

theorem Joined.size (joined : Joined clauses f) (numbered : Numbered clauses) : f.params.size = clauses.length := by
  have same : f.params.keys.Perm (clauses.map Clause.name) :=
    (List.perm_ext_iff_of_nodup f.params.nodup_keys numbered.nodup).mpr fun _ => joined.mem_keys_iff
  have lengths := same.length_eq
  rw [List.length_map, Dict.keys, List.length_map] at lengths
  exact lengths

theorem Joined.validate (joined : Joined clauses f) : f.validate = .ok () := by
  refine Filter.validate_eq_ok_iff.mpr fun p standing name member => ?_
  exact Dict.mem_keys_iff.mp (joined.mem_keys_iff.mpr (joined.mem_names standing member))

end Joined

/-- The clauses that are read of words, the first of which has the index `index`. -/
inductive Reads : Nat → List String → List Clause → Prop where
  | nil (index : Nat) : Reads index [] []
  | cons {index : Nat} {raw : String} {rest : List String} {c : Clause} {others : List Clause}
      (first : filterOf raw index = .ok c.filter) (later : Reads (index + 1) rest others) :
      Reads index (raw :: rest) (c :: others)

section Reads

variable {index : Nat} {words : List String} {clauses : List Clause}

theorem Reads.length (reads : Reads index words clauses) : clauses.length = words.length := by
  induction reads with
  | nil _ => rfl
  | cons _ _ ih => exact congrArg (· + 1) ih

theorem Reads.clause (reads : Reads index words clauses) {i : Nat} {raw : String} (here : words[i]? = some raw) :
    ∃ c, clauses[i]? = some c ∧ filterOf raw (index + i) = .ok c.filter := by
  induction reads generalizing i with
  | nil _ => cases here
  | @cons index word rest c others first _ ih =>
    cases i with
    | zero =>
      obtain rfl : word = raw := Option.some.inj here
      exact ⟨c, rfl, first⟩
    | succ i =>
      obtain ⟨d, there, found⟩ := ih here
      rw [Nat.add_assoc, Nat.add_comm 1] at found
      exact ⟨d, there, found⟩

/-- All clauses match a record if the filters of all words do. -/
theorem Reads.selects_iff (reads : Reads index words clauses) (r : Record) :
    clauses.all (·.filter.selects r) = true ↔
      ∀ i raw, words[i]? = some raw → ∃ g, filterOf raw (index + i) = .ok g ∧ g.selects r = true := by
  rw [List.all_eq_true]
  constructor
  · intro all i raw here
    obtain ⟨c, there, found⟩ := reads.clause here
    exact ⟨c.filter, found, all c (List.mem_of_getElem? there)⟩
  · intro all c member
    obtain ⟨i, inside, rfl⟩ := List.mem_iff_getElem.mp member
    have bound : i < words.length := reads.length ▸ inside
    have word : words[i]? = some words[i] := List.getElem?_eq_getElem bound
    obtain ⟨d, there, found⟩ := reads.clause word
    obtain ⟨g, read, selected⟩ := all i _ word
    obtain rfl : clauses[i] = d := Option.some.inj ((List.getElem?_eq_getElem inside).symm.trans there)
    obtain rfl : clauses[i].filter = g := Except.ok.inj (found.symm.trans read)
    exact selected

end Reads

/-- All words are read, if none of them is malformed, and each adds its clause to those before it. -/
theorem stands_addFilters {clauses : List Clause} {nav done : Navigator} {words : List String}
    (numbered : Numbered clauses) (stands : Stands clauses nav.filter)
    (read : addFilters clauses.length nav words = .ok done) :
    ∃ later, Reads clauses.length words later ∧ Numbered (clauses ++ later) ∧
      Stands (clauses ++ later) done.filter := by
  induction words generalizing clauses nav with
  | nil =>
    cases read
    rw [← List.append_nil clauses] at numbered stands
    exact ⟨[], .nil _, numbered, stands⟩
  | cons raw rest ih =>
    rw [addFilters] at read
    by_cases malformed : Malformed raw.toList
    · obtain ⟨e, refused⟩ := filterOf_of_malformed malformed clauses.length
      rw [refused] at read
      cases read
    · obtain ⟨c, field, found, named⟩ := filterOf_of_not_malformed malformed clauses.length
      rw [found] at read
      have extended := numbered.append named
      have length : (clauses ++ [c]).length = clauses.length + 1 := List.length_append
      obtain ⟨later, words, both, standing⟩ := ih extended (stands.setFilter extended.fresh) (length ▸ read)
      rw [List.append_assoc] at both standing
      exact ⟨c :: later, .cons found (length ▸ words), both, standing⟩

theorem addFilters_error_iff (index : Nat) (nav : Navigator) (words : List String) :
    (∃ e, addFilters index nav words = .error e) ↔ ∃ raw ∈ words, Malformed raw.toList := by
  induction words generalizing index nav with
  | nil => simp [addFilters]
  | cons raw rest ih =>
    rw [List.exists_mem_cons_iff, addFilters]
    by_cases malformed : Malformed raw.toList
    · obtain ⟨e, refused⟩ := filterOf_of_malformed malformed index
      rw [refused]
      exact iff_of_true ⟨e, rfl⟩ (.inl malformed)
    · obtain ⟨c, field, found, -⟩ := filterOf_of_not_malformed malformed index
      rw [found, or_iff_right malformed]
      exact ih (index + 1) (nav.setFilter c.filter)

/-- Sort keys leave the filter as it is. -/
theorem filter_foldl_addSort (nav : Navigator) (keys : List SortKey) :
    (keys.foldl addSort nav).filter = nav.filter := by
  induction keys generalizing nav with
  | nil => rfl
  | cons key rest ih =>
    rw [List.foldl_cons, ih, addSort]
    cases key.direction <;> rfl

/-- What a command line filters by. A word that is malformed refuses it as a whole. Without words there is no filter.
Otherwise each word has one comparison, in the order of the words, with the field and the operation that are read from
it, and one parameter with its value, whose name stands in no other comparison; the filter has a value for all its
placeholders, judges every record, and matches those that the filters of all single words match. -/
theorem navigator_filters_by_all (pageSize : PageSize) (filters sorts : List String) :
    ((∃ e, navigator pageSize filters sorts = .error e) ↔ ∃ raw ∈ filters, Malformed raw.toList) ∧
    ∀ nav, navigator pageSize filters sorts = .ok nav →
      (filters = [] → nav.filter = none) ∧
      (filters ≠ [] → ∃ f p, nav.filter = some f ∧ f.predicate = some p ∧
        p.leaves.length = filters.length ∧ f.params.size = filters.length ∧ f.validate = .ok () ∧
        (∀ i raw, filters[i]? = some raw → ∃ c : Clause, filterOf raw i = .ok c.filter ∧
          p.leaves[i]? = some c.leaf ∧ f.params.get? c.name = some c.value ∧
          ∀ (j : Nat) (leaf : Predicate), p.leaves[j]? = some leaf → leaf.bindName? = some c.name → j = i) ∧
        ∀ r, f.evaluate r = .ok (f.selects r) ∧
          (f.selects r = true ↔
            ∀ i raw, filters[i]? = some raw → ∃ g, filterOf raw i = .ok g ∧ g.selects r = true)) := by
  have refused : (∃ e, navigator pageSize filters sorts = .error e) ↔ ∃ raw ∈ filters, Malformed raw.toList := by
    rw [← addFilters_error_iff 0 (Navigator.new pageSize), navigator]
    cases addFilters 0 (Navigator.new pageSize) filters <;> simp [Except.map]
  refine ⟨refused, fun nav built => ?_⟩
  obtain ⟨done, read, rfl⟩ := map_eq_ok built
  have none : Numbered [] := nofun
  have unfiltered : Stands [] (Navigator.new pageSize).filter := ⟨fun _ => rfl, fun some => absurd rfl some⟩
  obtain ⟨clauses, reads, numbered, stands⟩ := stands_addFilters none unfiltered read
  rw [List.nil_append] at numbered stands
  rw [filter_foldl_addSort]
  refine ⟨fun empty => stands.1 ?_, fun present => ?_⟩
  · exact List.eq_nil_of_length_eq_zero (reads.length.trans (congrArg List.length empty))
  · have nonempty : clauses ≠ [] := by
      rintro rfl
      exact present (List.eq_nil_of_length_eq_zero reads.length.symm)
    obtain ⟨f, standing, joined⟩ := stands.2 nonempty
    obtain ⟨p, root, leaves⟩ := joined.leaves
    have selected (r : Record) := reads.selects_iff r
    simp only [List.length_nil, Nat.zero_add, ← joined.selects] at selected
    refine ⟨f, p, standing, root, by rw [leaves, List.length_map, reads.length],
      (joined.size numbered).trans reads.length, joined.validate, fun i raw here => ?_,
      fun r => ⟨joined.evaluate r, selected r⟩⟩
    obtain ⟨c, there, found⟩ := reads.clause here
    rw [List.length_nil, Nat.zero_add] at found
    refine ⟨c, found, ?_, ?_, fun j leaf other named => ?_⟩
    · rw [leaves, List.getElem?_map, there]
      rfl
    · rw [joined.bound, numbered.find? there]
      rfl
    · rw [leaves, List.getElem?_map, Option.map_eq_some_iff] at other
      obtain ⟨d, elsewhere, rfl⟩ := other
      exact numbered.index elsewhere there (Option.some.inj named)

end RunQuery.CommandLine
