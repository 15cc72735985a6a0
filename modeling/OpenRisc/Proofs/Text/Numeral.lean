import OpenRisc.Operand

set_option autoImplicit false

namespace OpenRisc

namespace Text

theorem digitChar_inj : ∀ left < 16, ∀ right < 16,
    Nat.digitChar left = Nat.digitChar right → left = right := by
  decide

theorem isAlphanum_digitChar : ∀ digit < 16, (Nat.digitChar digit).isAlphanum = true := by
  decide

-- Bit `p` belongs to the digit that starts at the multiple of four below it.
theorem start_mem_digits {p : Nat} (inside : p < 32) :
    4 * (p / 4) ∈ [28, 24, 20, 16, 12, 8, 4, 0] := by
  have digit : ∀ k < 8, 4 * k ∈ [28, 24, 20, 16, 12, 8, 4, 0] := by decide
  exact digit (p / 4) (by omega)

theorem hexDigits_injective {left right : Word} (same : hexDigits left = hexDigits right) :
    left = right := by
  have digits := List.map_inj_left.mp same
  apply BitVec.eq_of_getLsbD_eq
  intro p inside
  have digit := digitChar_inj _ (Span.toNat_read_lt ⟨4 * (p / 4), 4⟩ left) _
    (Span.toNat_read_lt ⟨4 * (p / 4), 4⟩ right) (digits _ (start_mem_digits inside))
  have bit := (Span.read_eq_read_iff _ _ _).mp (BitVec.eq_of_toNat_eq digit) (p % 4)
    (Nat.mod_lt p (by decide))
  rwa [Nat.div_add_mod] at bit

theorem isAlphanum_of_mem_hexDigits {raw : Word} {c : Char} (member : c ∈ hexDigits raw) :
    c.isAlphanum = true := by
  obtain ⟨start, _, rfl⟩ := List.mem_map.mp member
  exact isAlphanum_digitChar _ (Span.toNat_read_lt ⟨start, 4⟩ raw)

def significant (raw : Word) : List Char :=
  (hexDigits raw).dropWhile (· == '0')

theorem eq_of_dropWhile_zeros {left right : List Char} (length : left.length = right.length)
    (same : left.dropWhile (· == '0') = right.dropWhile (· == '0')) : left = right := by
  induction left generalizing right with
  | nil => exact (List.eq_nil_of_length_eq_zero length.symm).symm
  | cons digit rest ih =>
    cases right with
    | nil => simp at length
    | cons other later =>
      have remaining := (List.dropWhile_sublist (l := rest) (· == '0')).length_le
      have remaining' := (List.dropWhile_sublist (l := later) (· == '0')).length_le
      have lengths := congrArg List.length same
      simp only [List.length_cons, Nat.add_right_cancel_iff] at length
      by_cases zero : digit = '0' <;> by_cases zero' : other = '0'
      · subst zero zero'
        rw [ih length (by simpa using same)]
      · simp [zero, zero'] at lengths
        omega
      · simp [zero, zero'] at lengths
        omega
      · simpa [zero, zero'] using same

theorem significant_injective {left right : Word} (same : significant left = significant right) :
    left = right :=
  hexDigits_injective (eq_of_dropWhile_zeros rfl same)

theorem significant_ne_zero (raw : Word) : significant raw ≠ ['0'] := by
  intro zero
  have first := List.head?_dropWhile_not (· == '0') (hexDigits raw)
  rw [show (hexDigits raw).dropWhile (· == '0') = ['0'] from zero] at first
  simp at first

theorem toList_hex (raw : Word) :
    (hex raw).toList =
      '0' :: 'x' :: if significant raw = [] then ['0'] else significant raw := by
  rw [hex, significant]
  split
  next zeros =>
    rw [zeros]
    rfl
  next digits shown =>
    rw [if_neg shown, String.toList_append, @String.toList_ofList (List.dropWhile _ _)]
    rfl

theorem hex_injective {left right : Word} (same : hex left = hex right) : left = right := by
  have digits := congrArg String.toList same
  rw [toList_hex, toList_hex, List.cons.injEq, List.cons.injEq] at digits
  apply significant_injective
  have both := digits.2.2
  split at both <;> split at both
  next none none' => rw [none, none']
  next => exact absurd both.symm (significant_ne_zero right)
  next => exact absurd both (significant_ne_zero left)
  next => exact both

theorem isAlphanum_of_mem_hex {raw : Word} {c : Char} (member : c ∈ (hex raw).toList) :
    c.isAlphanum = true := by
  rw [toList_hex, List.mem_cons, List.mem_cons] at member
  rcases member with rfl | rfl | member
  · decide
  · decide
  · split at member
    next =>
      rw [List.mem_singleton.mp member]
      decide
    next => exact isAlphanum_of_mem_hexDigits ((List.dropWhile_sublist _).subset member)

theorem toDigits_injective {left right : Word}
    (same : Nat.toDigits 10 left.toNat = Nat.toDigits 10 right.toNat) : left = right := by
  have numbers := congrArg (fun digits => Nat.ofDigitChars 10 digits 0) same
  simp only [Nat.ofDigitChars_ten_toDigits] at numbers
  exact BitVec.eq_of_toNat_eq numbers

theorem isAlphanum_of_mem_toDigits {n : Nat} {c : Char} (member : c ∈ Nat.toDigits 10 n) :
    c.isAlphanum = true := by
  have digit := Nat.isDigit_of_mem_toDigits (by decide) (by decide) member
  rw [Char.isAlphanum, digit, Bool.or_true]

theorem not_mem_hex {mark : Char} (other : mark.isAlphanum = false) (raw : Word) :
    mark ∉ (hex raw).toList := by
  intro member
  simp [isAlphanum_of_mem_hex member] at other

theorem not_mem_toDigits {mark : Char} (other : mark.isAlphanum = false) (n : Nat) :
    mark ∉ Nat.toDigits 10 n := by
  intro member
  simp [isAlphanum_of_mem_toDigits member] at other

end Text

end OpenRisc
