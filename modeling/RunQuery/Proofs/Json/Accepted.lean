import RunQuery.Proofs.Json.Reread
import RunQuery.Proofs.Wire.Accepted.Message

/-!
What JSON can carry: null, truth values, integers of 64 bits, finite numbers and texts, and maps whose keys are texts.
A scan has nothing else in it.
-/
namespace RunQuery.Json

def limits : Limits where
  scalar
    | .null => True
    | .bool _ => True
    | .int i => -0x8000000000000000 ≤ i ∧ i < 0x10000000000000000
    | .double n => n.isFinite = true
    | .text _ => True
    | _ => False
  key w := ∃ s, w = .text s
  count _ := True

theorem limits_kept : limits.Kept where
  noList _ := id
  noMap _ := id
  null := trivial
  widened i bounds := by
    have word : i.natAbs ≤ Numeral.wordLimit := by
      have bounds : (_ : Int) ≤ i ∧ i < (_ : Int) := bounds
      show i.natAbs ≤ 0x10000000000000000
      omega
    exact isFinite_ofMagnitude _ (Nat.lt_of_le_of_lt (Numeral.nearest_le_word word) Numeral.word_lt)
  promoted _ := False.elim
  spelled _ _ _ := False.elim
  small n bound := by
    show (_ : Int) ≤ n ∧ (n : Int) < _
    omega
  short _ _ := trivial
  named s _ := ⟨s, rfl⟩
  fewer _ _ _ _ := trivial
  few := trivial

theorem value?_within {x : Numeral} {w : Wire} (valued : x.value? = some w) : limits.scalar w := by
  have double (found : (x.magnitude?.map fun m => Wire.double (Number.ofMagnitude x.negative m)) = some w) :
      limits.scalar w := by
    obtain ⟨m, read, rfl⟩ := Option.map_eq_some_iff.mp found
    exact isFinite_ofMagnitude _ (Numeral.magnitude?_finite read)
  simp only [Numeral.value?] at valued
  split at valued
  · exact double valued
  split at valued
  · split at valued
    · exact double valued
    next small =>
      cases valued
      simp only [Bool.or_eq_true, decide_eq_true_eq, not_or] at small
      show (_ : Int) ≤ _ ∧ _ < _
      omega
  by_cases small : Digits.value x.whole < Numeral.wordLimit
  · rw [if_pos small] at valued
    cases valued
    have small : Digits.value x.whole < 0x10000000000000000 := small
    show (_ : Int) ≤ _ ∧ _ < _
    omega
  · rw [if_neg small] at valued
    exact double valued

theorem scanNumeral_within (text : List Char) : (scanNumeral text).1.Within limits := by
  unfold scanNumeral
  split
  · trivial
  · split
    next valued => exact value?_within valued
    next => trivial

/-- A finite number is taken for a finite number. -/
theorem isFinite_reread {n : Number} (finite : n.isFinite = true) : (reread n).isFinite = true := by
  obtain ⟨text, _, scanned⟩ := scanNumeral_reread finite
  have within := scanNumeral_within text
  rw [scanned] at within
  exact within

theorem scanText_within (text : List Char) : (scanText text).1.Within limits := by
  unfold scanText
  split <;> trivial

theorem scanText_key (text : List Char) (room : Nat) (w : Wire) (read : (scanText text).1.read room = .ok w) :
    limits.key w := by
  unfold scanText at read
  split at read
  · cases read
  · cases read
  · cases read
    exact ⟨_, rfl⟩

theorem scanned_within (fuel : Nat) :
    (∀ text, (scanValue fuel text).1.Within limits) ∧
    (∀ text, Scan.ItemsWithin limits (scanItems fuel text).1) ∧
    (∀ text, Scan.EntriesWithin limits (scanEntries fuel text).1) := by
  have broken : ∀ room w, Scan.broken.read room = .ok w → limits.key w := nofun
  induction fuel with
  | zero => exact ⟨fun _ => trivial, fun _ => ⟨trivial, trivial⟩, fun _ => ⟨⟨broken, trivial, trivial⟩, trivial⟩⟩
  | succ fuel ih =>
    obtain ⟨ofValue, ofItems, ofEntries⟩ := ih
    refine ⟨fun text => ?_, fun text => ?_, fun text => ?_⟩
    · rw [scanValue]
      split
      · trivial
      · trivial
      · trivial
      · exact scanText_within _
      · split
        · exact ⟨trivial, trivial⟩
        · exact ⟨trivial, ofItems _⟩
      · split
        · exact ⟨trivial, trivial⟩
        · exact ⟨trivial, ofEntries _⟩
      · exact scanNumeral_within _
    · rw [scanItems]
      dsimp only
      split
      · exact ⟨ofValue _, ofItems _⟩
      · exact ⟨ofValue _, trivial⟩
      · exact ⟨ofValue _, trivial, trivial⟩
    · rw [scanEntries]
      split
      · dsimp only
        split
        · split
          · exact ⟨⟨scanText_key _, scanText_within _, ofValue _⟩, ofEntries _⟩
          · exact ⟨⟨scanText_key _, scanText_within _, ofValue _⟩, trivial⟩
          · exact ⟨⟨scanText_key _, scanText_within _, ofValue _⟩, ⟨broken, trivial, trivial⟩, trivial⟩
        · exact ⟨⟨scanText_key _, scanText_within _, trivial⟩, trivial⟩
      · exact ⟨⟨broken, trivial, trivial⟩, trivial⟩

theorem scan_within (text : List Char) : (scan text).value.Within limits :=
  (scanned_within (2 * text.length + 1)).1 text

theorem decoded_of_ok {α : Type} {decoder : Dialect → Nat → Scan → Except DecodeError α} {text : List Char} {a : α}
    (read : decode decoder text = .ok a) : decoder ⟨false, false⟩ room (scan text).value = .ok a := by
  obtain ⟨b, decoded, read⟩ := bind_eq_ok read
  split at read
  · cases read
    exact decoded
  · cases read

theorem filter_kept {text : List Char} {f : Filter} (read : decode Filter.decode text = .ok f) :
    f.Kept limits room :=
  Filter.decode_kept limits_kept (scan_within text) (decoded_of_ok read)

theorem request_kept {text : List Char} {r : Request} (read : decode Request.decode text = .ok r) :
    r.Kept limits room :=
  Request.decode_kept limits_kept (scan_within text) (decoded_of_ok read)

end RunQuery.Json
