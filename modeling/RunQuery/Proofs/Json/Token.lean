import RunQuery.Json.Scanner
import RunQuery.Json.Writer

/-!
Quoted texts and numerals, scanned after they were written. A quoted text ends by itself; a numeral ends where
something follows that cannot belong to it, which is what every layout puts there.
-/
namespace RunQuery.Json

/-- Nothing that could go on with a numeral. -/
def Ends (rest : List Char) : Prop := ∀ c ∈ rest.head?, c.isDigit = false ∧ c ≠ '.' ∧ c ≠ 'e' ∧ c ≠ 'E'

theorem ends_nil : Ends [] := nofun

theorem ends_cons {c : Char} (mark : c = ',' ∨ c = ']' ∨ c = '}') (rest : List Char) : Ends (c :: rest) := by
  rintro _ ⟨⟩
  rcases mark with rfl | rfl | rfl <;> decide

theorem skipBlank_cons {c : Char} (solid : isBlank c = false) (text : List Char) :
    skipBlank (c :: text) = c :: text :=
  List.dropWhile_cons_of_neg (Bool.not_eq_true _ ▸ solid)

/-- Nothing that could go on with digits. -/
def Stops (rest : List Char) : Prop := ∀ c ∈ rest.head?, c.isDigit = false

theorem stops_nil : Stops [] := nofun

theorem stops_cons {c : Char} (other : c.isDigit = false) (rest : List Char) : Stops (c :: rest) := by
  rintro _ ⟨⟩
  exact other

structure IsDigits (ds : List Char) : Prop where
  some : ds ≠ []
  all : ∀ c ∈ ds, c.isDigit = true

section Numeral

variable {rest : List Char}

theorem span_of_stops (stops : Stops rest) :
    rest.takeWhile Char.isDigit = [] ∧ rest.dropWhile Char.isDigit = rest := by
  cases rest with
  | nil => exact ⟨rfl, rfl⟩
  | cons c rest => simp [stops c rfl]

theorem digits?_of_stops {ds : List Char} (digits : IsDigits ds) (stops : Stops rest) :
    digits? (ds ++ rest) = some (ds, rest) := by
  obtain ⟨taken, dropped⟩ := span_of_stops stops
  rw [digits?, List.takeWhile_append_of_pos digits.all, List.dropWhile_append_of_pos digits.all, taken, dropped,
    List.append_nil]
  simp [digits.some]

theorem span_append (ends : Ends rest) (text : List Char) :
    (text ++ rest).takeWhile Char.isDigit = text.takeWhile Char.isDigit ∧
      (text ++ rest).dropWhile Char.isDigit = text.dropWhile Char.isDigit ++ rest := by
  induction text with
  | nil => exact span_of_stops fun c first => (ends c first).1
  | cons c text ih =>
    by_cases digit : c.isDigit = true
    · simp [digit, ih]
    · simp [digit]

theorem digits?_append (ends : Ends rest) {text ds left : List Char} (found : digits? text = some (ds, left)) :
    digits? (text ++ rest) = some (ds, left ++ rest) := by
  obtain ⟨taken, dropped⟩ := span_append ends text
  simp only [digits?, taken, dropped] at found ⊢
  split at found
  · cases found
  next digit =>
    cases found
    rw [if_neg digit]

theorem whole?_append (ends : Ends rest) {text ds left : List Char} (found : whole? text = some (ds, left)) :
    whole? (text ++ rest) = some (ds, left ++ rest) := by
  obtain ⟨digits, short⟩ := Option.filter_eq_some_iff.mp found
  exact Option.filter_eq_some_iff.mpr ⟨digits?_append ends digits, short⟩

theorem fraction?_append (ends : Ends rest) {text left : List Char} {fraction : Option (List Char)}
    (found : fraction? text = some (fraction, left)) : fraction? (text ++ rest) = some (fraction, left ++ rest) := by
  unfold fraction? at found
  split at found
  next digits =>
    obtain ⟨parts, taken, same⟩ := Option.map_eq_some_iff.mp found
    cases same
    rw [List.cons_append, fraction?, digits?_append ends taken, Option.map_some]
  next other =>
    cases found
    unfold fraction?
    split
    next digits point =>
      cases text with
      | nil => exact absurd rfl (ends '.' (by rw [← List.nil_append rest, point]; rfl)).2.1
      | cons c text =>
        cases point
        exact absurd rfl (other text)
    next => rfl

/-- The sign of an exponent and what follows it. -/
def exponentSign : List Char → Bool × List Char
  | '-' :: digits => (true, digits)
  | '+' :: digits => (false, digits)
  | digits => (false, digits)

theorem exponentSign_append {text : List Char} (some : text ≠ []) (rest : List Char) :
    exponentSign (text ++ rest) = ((exponentSign text).1, (exponentSign text).2 ++ rest) := by
  match text, some with
  | c :: text, _ =>
    by_cases minus : c = '-'
    · subst minus
      rfl
    by_cases plus : c = '+'
    · subst plus
      rfl
    · simp [exponentSign, minus, plus]

theorem exponent?_cons (c : Char) (text : List Char) :
    exponent? (c :: text) =
      if c = 'e' ∨ c = 'E' then
        (digits? (exponentSign text).2).map fun parts => (some ((exponentSign text).1, parts.1), parts.2)
      else some (none, c :: text) := rfl

theorem exponent?_append (ends : Ends rest) {text left : List Char} {exponent : Option (Bool × List Char)}
    (found : exponent? text = some (exponent, left)) : exponent? (text ++ rest) = some (exponent, left ++ rest) := by
  cases text with
  | nil =>
    cases found
    cases rest with
    | nil => rfl
    | cons c rest =>
      have other := ends c rfl
      rw [List.nil_append, exponent?_cons, if_neg (not_or.mpr ⟨other.2.2.1, other.2.2.2⟩)]
  | cons c text =>
    rw [List.cons_append]
    rw [exponent?_cons] at found ⊢
    split at found
    next mark =>
      obtain ⟨parts, taken, same⟩ := Option.map_eq_some_iff.mp found
      cases same
      have some : text ≠ [] := by
        rintro rfl
        cases taken
      rw [if_pos mark, exponentSign_append some, digits?_append ends taken]
      rfl
    next other =>
      cases found
      rw [if_neg other]
      rfl

/-- A numeral whose sign has been read. -/
def unsigned? (negative : Bool) (text : List Char) : Option (Numeral × List Char) := do
  let (whole, text) ← whole? text
  let (fraction, text) ← fraction? text
  let (exponent, text) ← exponent? text
  return (⟨negative, whole, fraction, exponent⟩, text)

theorem unsigned?_append (ends : Ends rest) {negative : Bool} {text left : List Char} {x : Numeral}
    (found : unsigned? negative text = some (x, left)) :
    unsigned? negative (text ++ rest) = some (x, left ++ rest) := by
  obtain ⟨⟨whole, afterWhole⟩, wholeRead, found⟩ := Option.bind_eq_some_iff.mp found
  obtain ⟨⟨fraction, afterFraction⟩, fractionRead, found⟩ := Option.bind_eq_some_iff.mp found
  obtain ⟨⟨exponent, afterExponent⟩, exponentRead, done⟩ := Option.bind_eq_some_iff.mp found
  cases done
  unfold unsigned?
  rw [whole?_append ends wholeRead, Option.bind_eq_bind, Option.bind_some]
  dsimp only
  rw [fraction?_append ends fractionRead, Option.bind_eq_bind, Option.bind_some]
  dsimp only
  rw [exponent?_append ends exponentRead]
  rfl

theorem numeral?_minus (text : List Char) : numeral? ('-' :: text) = unsigned? true text := rfl

theorem numeral?_of_ne {c : Char} (other : c ≠ '-') (text : List Char) :
    numeral? (c :: text) = unsigned? false (c :: text) := by
  unfold numeral?
  split
  next same =>
    split at same
    next rest minus => cases minus; exact absurd rfl other
    next => cases same; rfl

/-- A numeral that was read is read again before anything that ends it. -/
theorem numeral?_append (ends : Ends rest) {text left : List Char} {x : Numeral}
    (found : numeral? text = some (x, left)) : numeral? (text ++ rest) = some (x, left ++ rest) := by
  cases text with
  | nil => cases found
  | cons c text =>
    rw [List.cons_append]
    by_cases minus : c = '-'
    · subst minus
      exact unsigned?_append ends found
    · rw [numeral?_of_ne minus] at found ⊢
      exact unsigned?_append ends found

theorem digits?_start {text : List Char} {parts : List Char × List Char} (found : digits? text = some parts) :
    ∃ c others, text = c :: others ∧ c.isDigit = true := by
  cases text with
  | nil => cases found
  | cons c others =>
    refine ⟨c, others, rfl, ?_⟩
    by_cases digit : c.isDigit = true
    · exact digit
    · simp [digits?, digit] at found

theorem numeral?_start {text : List Char} {parts : Numeral × List Char} (found : numeral? text = some parts) :
    ∃ c others, text = c :: others ∧ (c = '-' ∨ c.isDigit = true) := by
  cases text with
  | nil => cases found
  | cons c others =>
    refine ⟨c, others, rfl, ?_⟩
    by_cases minus : c = '-'
    · exact .inl minus
    · rw [numeral?_of_ne minus] at found
      obtain ⟨whole, read, _⟩ := Option.bind_eq_some_iff.mp found
      obtain ⟨_, _, same, digit⟩ := digits?_start (Option.filter_eq_some_iff.mp read).1
      cases same
      exact .inr digit

theorem ne_of_start {c other : Char} (start : c = '-' ∨ c.isDigit = true)
    (none : ¬ (other = '-' ∨ other.isDigit = true)) : c ≠ other := by
  rintro rfl
  exact none start

theorem isBlank_of_start {c : Char} (start : c = '-' ∨ c.isDigit = true) : isBlank c = false := by
  have other (d : Char) := @ne_of_start c d start
  simp [isBlank, other ' ' (by decide), other '\n' (by decide), other '\t' (by decide), other '\r' (by decide)]

/-- What starts like a numeral is scanned as one. -/
theorem scanValue_numeral {c : Char} (start : c = '-' ∨ c.isDigit = true) (fuel : Nat) (text : List Char) :
    scanValue (fuel + 1) (c :: text) = scanNumeral (c :: text) := by
  have other (d : Char) := @ne_of_start c d start
  rw [scanValue, skipBlank_cons (isBlank_of_start start)]
  split
  next same => cases same; exact absurd rfl (other 'n' (by decide))
  next same => cases same; exact absurd rfl (other 't' (by decide))
  next same => cases same; exact absurd rfl (other 'f' (by decide))
  next same => cases same; exact absurd rfl (other '"' (by decide))
  next same => cases same; exact absurd rfl (other '[' (by decide))
  next same => cases same; exact absurd rfl (other '{' (by decide))
  next => rfl

theorem scanNumeral_append (ends : Ends rest) {text : List Char} {w : Wire}
    (found : scanNumeral text = (.leaf w, [])) : scanNumeral (text ++ rest) = (.leaf w, rest) := by
  unfold scanNumeral at found
  split at found
  next => cases found
  next x left read =>
    split at found
    next value valued =>
      cases found
      rw [scanNumeral, numeral?_append ends read]
      simp only [valued]
      rfl
    next => cases found

/-- A numeral that is scanned by itself is scanned as a value wherever it ends. -/
theorem scanValue_of_numeral (ends : Ends rest) {text : List Char} {w : Wire}
    (found : scanNumeral text = (.leaf w, [])) (fuel : Nat) :
    scanValue (fuel + 1) (text ++ rest) = (.leaf w, rest) := by
  have whole := scanNumeral_append ends found
  have some : ∃ parts, numeral? text = some parts := by
    rw [← Option.isSome_iff_exists, Option.isSome_iff_ne_none]
    intro none
    rw [scanNumeral, none] at found
    cases found
  obtain ⟨parts, read⟩ := some
  obtain ⟨c, others, rfl, start⟩ := numeral?_start read
  rw [List.cons_append] at whole ⊢
  rw [scanValue_numeral start, whole]

end Numeral

section Integer

theorem head?_toDigits {n : Nat} (positive : n ≠ 0) : (Nat.toDigits 10 n).head? ≠ some '0' := by
  induction n using Nat.strongRecOn with
  | ind n ih =>
    by_cases small : n < 10
    · have digit : ∀ n < 10, n ≠ 0 → [Nat.digitChar n].head? ≠ some '0' := by decide
      rw [Nat.toDigits_of_lt_base small]
      exact digit n small positive
    · have ten : 10 ≤ n := Nat.not_lt.mp small
      rw [Nat.toDigits_of_base_le (by decide) ten, List.head?_append]
      have others := ih (n / 10) (by omega) (by omega)
      cases first : (Nat.toDigits 10 (n / 10)).head? with
      | none => exact absurd (List.head?_eq_none_iff.mp first) Nat.toDigits_ne_nil
      | some c =>
        rw [first] at others
        exact others

theorem isDigits_toDigits (n : Nat) : IsDigits (Nat.toDigits 10 n) :=
  ⟨Nat.toDigits_ne_nil, fun _ member => Nat.isDigit_of_mem_toDigits (by decide) (by decide) member⟩

theorem digits?_toDigits (n : Nat) : digits? (Nat.toDigits 10 n) = some (Nat.toDigits 10 n, []) := by
  have read := digits?_of_stops (isDigits_toDigits n) stops_nil
  rwa [List.append_nil] at read

theorem whole?_toDigits (n : Nat) : whole? (Nat.toDigits 10 n) = some (Nat.toDigits 10 n, []) := by
  rw [whole?, digits?_toDigits, Option.filter_some]
  by_cases zero : n = 0
  · subst zero
    rfl
  · simp [head?_toDigits zero]

theorem numeral?_intText (i : Int) :
    numeral? (intText i) = some (⟨decide (i < 0), Nat.toDigits 10 i.natAbs, none, none⟩, []) := by
  have unsigned (negative : Bool) : unsigned? negative (Nat.toDigits 10 i.natAbs) =
      some (⟨negative, Nat.toDigits 10 i.natAbs, none, none⟩, []) := by
    rw [unsigned?, whole?_toDigits]
    rfl
  unfold intText
  split
  next negative =>
    rw [numeral?_minus, unsigned, decide_eq_true negative]
  next positive =>
    obtain ⟨c, others, same, digit⟩ := digits?_start (digits?_toDigits i.natAbs)
    have other : c ≠ '-' := by
      rintro rfl
      revert digit
      decide
    rw [decide_eq_false positive, ← unsigned, same, numeral?_of_ne other]

/-- An integer of 64 bits, signed or not, comes back as an integer. -/
theorem scanNumeral_intText {i : Int} (least : -0x8000000000000000 ≤ i) (most : i < 0x10000000000000000) :
    scanNumeral (intText i) = (.leaf (.int i), []) := by
  have value : Digits.value (Nat.toDigits 10 i.natAbs) = i.natAbs := Nat.ofDigitChars_ten_toDigits
  have same : (⟨decide (i < 0), Nat.toDigits 10 i.natAbs, none, none⟩ : Numeral).value? = some (.int i) := by
    simp only [Numeral.value?, value, Numeral.wordLimit]
    by_cases negative : i < 0
    · simp only [negative, decide_true]
      rw [if_neg (by simp), if_pos True.intro, if_neg (by simp; omega)]
      congr 2
      omega
    · simp only [negative, decide_false]
      rw [if_neg (by simp), if_neg (by simp), if_pos (by omega)]
      congr 2
      omega
  rw [scanNumeral, numeral?_intText]
  simp only [same]

end Integer

section Text

theorem unit?_hexDigits {n : Nat} (small : n < 0x20) :
    unit? '0' '0' (Nat.digitChar (n / 16)) (Nat.digitChar (n % 16)) = some n := by
  have all : ∀ n < 0x20, unit? '0' '0' (Nat.digitChar (n / 16)) (Nat.digitChar (n % 16)) = some n := by decide
  exact all n small

/-- The character that was escaped is the one that is scanned. -/
theorem quotedFrom_escaped (c : Char) (rest : List Char) :
    quotedFrom none (escaped c ++ rest) = (quotedFrom none rest).push c := by
  unfold escaped
  split
  next mark => rcases mark with rfl | rfl <;> rfl
  next plain =>
    split
    next same => subst same; rfl
    split
    next same => subst same; rfl
    split
    next same => subst same; rfl
    split
    next same => subst same; rfl
    split
    next same => subst same; rfl
    split
    next control =>
      have unit := unit?_hexDigits control
      simp only [hexDigits, List.cons_append, List.nil_append, quotedFrom, unit]
      rw [if_neg (by omega), if_neg (by simp), if_neg (by omega), Char.ofNat_toNat]
    next printable =>
      rw [not_or] at plain
      rw [List.singleton_append, quotedFrom]
      · simp [printable, plain]
      · exact plain.1
      · exact fun _ _ _ _ _ same _ => plain.2 same
      · exact fun _ _ same _ => plain.2 same

theorem quotedFrom_flatMap (content rest : List Char) :
    quotedFrom none (content.flatMap escaped ++ '"' :: rest) = some (some content, rest) := by
  induction content with
  | nil => rfl
  | cons c content ih =>
    rw [List.flatMap_cons, List.append_assoc, quotedFrom_escaped, ih]
    rfl

theorem scanText_quoted (s : String) (rest : List Char) :
    scanText (s.toList.flatMap escaped ++ '"' :: rest) = (.leaf (.text s), rest) := by
  rw [scanText, quotedFrom_flatMap]
  simp only [String.ofList_toList]

end Text

end RunQuery.Json
