import OpenRisc.Text.Hex

set_option autoImplicit false

namespace OpenRisc.Text

theorem ne_of_isAlpha {letter mark : Char} (alphabetic : letter.isAlpha = true)
    (other : mark.isAlpha = false) : letter ≠ mark := by
  rintro rfl
  simp [other] at alphabetic

theorem utf8Size_of_isAlpha {letter : Char} (alphabetic : letter.isAlpha = true) :
    letter.utf8Size = 1 := by
  rw [Char.utf8Size_eq_one_iff]
  rcases Bool.or_eq_true_iff.mp (alphabetic : (letter.isUpper || letter.isLower) = true) with
    upper | lower
  · exact UInt32.le_trans (of_decide_eq_true upper).2 (by decide)
  · exact UInt32.le_trans (of_decide_eq_true (Bool.and_eq_true_iff.mp lower).2) (by decide)

theorem utf8ByteSize_of_ascii {text : List Char} (ascii : ∀ c ∈ text, c.utf8Size = 1) :
    (String.ofList text).utf8ByteSize = text.length := by
  induction text with
  | nil => rfl
  | cons c rest ih =>
    obtain ⟨here, later⟩ := List.forall_mem_cons.mp ascii
    rw [String.ofList_cons, String.utf8ByteSize_append, String.utf8ByteSize_singleton, here, ih later,
      List.length_cons, Nat.add_comm]

def IsHexDigit (digit : Char) (value : Nat) : Prop :=
  value < 16 ∧ (digit = Nat.digitChar value ∨ digit = (Nat.digitChar value).toUpper)

instance (digit : Char) (value : Nat) : Decidable (IsHexDigit digit value) :=
  inferInstanceAs (Decidable (_ ∧ _))

theorem hexValue?_digitChar : ∀ value < 16, hexValue? (Nat.digitChar value) = some value ∧
    hexValue? (Nat.digitChar value).toUpper = some value := by
  decide

theorem lt_of_hexValue? {digit : Char} {value : Nat} (read : hexValue? digit = some value) :
    digit.toNat < 128 := by
  have below (limit : Char) (small : limit.toNat < 128) (bound : digit ≤ limit) :
      digit.toNat < 128 := Nat.lt_of_le_of_lt (UInt32.le_iff_toNat_le.mp bound) small
  unfold hexValue? at read
  split at read
  next decimal =>
    rw [Char.isDigit, Bool.and_eq_true, decide_eq_true_eq, decide_eq_true_eq] at decimal
    exact below '9' (by decide) decimal.2
  next =>
    split at read
    next lower => exact below 'f' (by decide) lower.2
    next =>
      split at read
      next upper => exact below 'F' (by decide) upper.2
      next => cases read

theorem isHexDigit_of_ascii : ∀ code < 128, ∀ value ∈ hexValue? (Char.ofNat code),
    value < 16 ∧
      (Char.ofNat code = Nat.digitChar value ∨ Char.ofNat code = (Nat.digitChar value).toUpper) := by
  decide

theorem hexValue?_eq_some_iff {digit : Char} {value : Nat} :
    hexValue? digit = some value ↔ IsHexDigit digit value := by
  constructor
  · intro read
    have known := isHexDigit_of_ascii digit.toNat (lt_of_hexValue? read)
    rw [Char.ofNat_toNat] at known
    exact known value read
  · rintro ⟨small, rfl | rfl⟩
    · exact (hexValue?_digitChar value small).1
    · exact (hexValue?_digitChar value small).2

end OpenRisc.Text
