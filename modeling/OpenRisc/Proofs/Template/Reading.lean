import OpenRisc.Proofs.Template.Grouping

set_option autoImplicit false

namespace OpenRisc

namespace Reading

def downTo (low : Nat) (high : List Bit) : Reading where
  next := low
  mask := Word.ofBits fun p => decide (low ≤ p) && (high.getD (p - low) .free matches .fixed _)
  value := Word.ofBits fun p => decide (low ≤ p) && (high.getD (p - low) .free == .fixed true)
  operandBits := (high.zipIdx low).reverse.filterMap fun bit =>
    bit.1.letter?.map fun letter => (letter, bit.2)

def takeBit (reading : Reading) (bit : Bit) : Reading :=
  reading.take (.bit bit)

theorem getLsbD_single (position p : Nat) :
    (1#32 <<< position).getLsbD p = (decide (p < 32) && decide (p = position)) := by
  rw [BitVec.getLsbD_shiftLeft, BitVec.getLsbD_one, Bool.eq_iff_iff]
  simp
  omega

theorem ofBits_or_bit (marks : Bit → Bool) (low : Nat) (bit : Bit) (high : List Bit) :
    (Word.ofBits fun p => decide (low + 1 ≤ p) && marks (high.getD (p - (low + 1)) .free)) |||
        (if marks bit then 1#32 <<< low else 0#32) =
      Word.ofBits fun p => decide (low ≤ p) && marks ((bit :: high).getD (p - low) .free) := by
  apply BitVec.eq_of_getLsbD_eq
  intro p inside
  rw [BitVec.getLsbD_or, Word.getLsbD_ofBits, Word.getLsbD_ofBits]
  have single : (if marks bit then 1#32 <<< low else 0#32).getLsbD p =
      (marks bit && decide (p = low)) := by
    cases marks bit
    · simp
    · rw [if_pos rfl, getLsbD_single]
      simp [inside]
  rw [single]
  rcases Nat.lt_trichotomy p low with below | rfl | above
  · simp [Nat.not_le.mpr below, Nat.ne_of_lt below, show ¬ low + 1 ≤ p by omega]
  · simp [inside]
  · have next : p - low = p - (low + 1) + 1 := by omega
    simp [next, inside, Nat.le_of_lt above, Nat.ne_of_gt above, show low + 1 ≤ p from above]

theorem takeBit_downTo (low : Nat) (bit : Bit) (high : List Bit) :
    (downTo (low + 1) high).takeBit bit = downTo low (bit :: high) := by
  have mask := ofBits_or_bit (fun bit => bit matches .fixed _) low bit high
  have value := ofBits_or_bit (fun bit => bit == .fixed true) low bit high
  cases bit with
  | fixed set => cases set <;> simp_all [takeBit, take, downTo, Bit.letter?, Token.width, Token.bits]
  | free => simp_all [takeBit, take, downTo, Bit.letter?, Token.width, Token.bits]
  | operand letter => simp_all [takeBit, take, downTo, Bit.letter?, Token.width, Token.bits]

theorem foldl_takeBit_reverse (low : Nat) (high : List Bit) :
    high.reverse.foldl takeBit { next := low + high.length } = downTo low high := by
  induction high generalizing low with
  | nil =>
    have none : Word.ofBits (fun _ => false) = 0 := by decide
    simp [downTo, none, show (Bit.free == .fixed true) = false from rfl]
  | cons bit high ih =>
    have rest := ih (low + 1)
    rw [Nat.add_right_comm, Nat.add_assoc] at rest
    rw [List.reverse_cons, List.foldl_append, List.length_cons, rest]
    exact takeBit_downTo low bit high

theorem next_take (reading : Reading) (token : Token) :
    (reading.take token).next = reading.next - token.width := by
  cases token with
  | bit bit =>
    cases bit with
    | fixed set => cases set <;> rfl
    | free => rfl
    | operand letter => rfl
  | nibble digit => rfl

theorem takeBit_fixed (reading : Reading) (set : Bool) :
    reading.takeBit (.fixed set) =
      { reading with
        next := reading.next - 1
        mask := reading.mask ||| 1#32 <<< (reading.next - 1)
        value := reading.value ||| if set then 1#32 <<< (reading.next - 1) else 0 } := by
  cases set <;> simp [takeBit, take, Token.width, Token.bits]

theorem shiftLeft_bit (set : Bool) (low p : Nat) :
    (if set then 1#32 <<< (low + p) else 0) = (if set then 1#32 <<< p else 0) <<< low := by
  cases set
  · simp
  · rw [if_pos rfl, if_pos rfl, Nat.add_comm, BitVec.shiftLeft_add]

theorem nibble_shiftLeft (digit : BitVec 4) (low : Nat) :
    digit.setWidth 32 <<< low =
      (if digit.getLsbD 3 then 1#32 <<< (low + 3) else 0) |||
        (if digit.getLsbD 2 then 1#32 <<< (low + 2) else 0) |||
        (if digit.getLsbD 1 then 1#32 <<< (low + 1) else 0) |||
        (if digit.getLsbD 0 then 1#32 <<< (low + 0) else 0) := by
  simp only [shiftLeft_bit, ← BitVec.shiftLeft_or_distrib]
  congr 1
  revert digit
  decide

theorem take_nibble {reading : Reading} (room : 4 ≤ reading.next) (digit : BitVec 4) :
    reading.take (.nibble digit) = (Token.nibble digit).bits.foldl takeBit reading := by
  obtain ⟨next, mask, value, operandBits⟩ := reading
  obtain ⟨low, rfl⟩ := Nat.exists_eq_add_of_le' (show 4 ≤ next from room)
  have masks : 0xF#32 <<< low =
      1#32 <<< (low + 3) ||| 1#32 <<< (low + 2) ||| 1#32 <<< (low + 1) ||| 1#32 <<< low :=
    nibble_shiftLeft 0xF low
  have values := nibble_shiftLeft digit low
  simp only [take, Token.width, Token.bits, List.map_cons, List.map_nil, List.foldl_cons,
    List.foldl_nil, takeBit_fixed, List.length_cons, List.length_nil, Nat.zero_add, Nat.reduceAdd,
    Nat.add_sub_cancel, Nat.add_one_sub_one, Nat.add_zero, masks, values, BitVec.or_assoc]

theorem foldl_take {tokens : List Token} {reading : Reading}
    (room : (tokens.map Token.width).sum ≤ reading.next) :
    tokens.foldl take reading = (tokens.flatMap Token.bits).foldl takeBit reading := by
  induction tokens generalizing reading with
  | nil => rfl
  | cons token rest ih =>
    rw [List.map_cons, List.sum_cons] at room
    have here : reading.take token = token.bits.foldl takeBit reading := by
      cases token with
      | bit bit => rfl
      | nibble digit => exact take_nibble (Nat.le_of_add_right_le room) digit
    rw [List.foldl_cons, List.flatMap_cons, List.foldl_append, ← here]
    apply ih
    rw [next_take]
    omega

theorem length_flatMap_bits (tokens : List Token) :
    (tokens.flatMap Token.bits).length = (tokens.map Token.width).sum := by
  rw [List.length_flatMap]
  rfl

end Reading

def Template.reading (template : Template) : Reading :=
  .downTo 0 template.bits

theorem Reading.ofText_eq (text : String) :
    ofText text = (Template.parse text).map Template.reading := by
  rw [ofText, Template.parse]
  cases tokenize text with
  | error error => rfl
  | ok tokens =>
    have total := length_flatMap_bits tokens
    simp only [bind, Except.bind, List.length_reverse, total]
    split
    next full =>
      have read := foldl_takeBit_reverse 0 (tokens.flatMap Token.bits).reverse
      rw [List.reverse_reverse, List.length_reverse, total, full] at read
      rw [foldl_take (show _ ≤ 32 from Nat.le_of_eq full)]
      exact congrArg Except.ok read
    next => rfl

structure Reading.Answers (reading : Reading) (template : Template) : Prop where
  mask : reading.mask = template.pattern.mask
  value : reading.value = template.pattern.value
  letters : reading.letters = template.letters
  uses : ∀ letter, reading.uses letter = template.uses letter
  letterWidth : ∀ letter, reading.letterWidth letter = template.letterWidth letter
  letterMask : ∀ letter, reading.letterMask letter = template.letterMask letter
  runs : ∀ letter, reading.runs letter = template.runs letter
  insert : ∀ raw letter value,
    reading.insert raw letter value = template.insert raw letter value

namespace Template

variable (template : Template) (letter : Char)

theorem zipIdx_bits : template.bits.zipIdx = (List.range 32).map fun p => (template.bit p, p) := by
  apply List.ext_getElem
  · simp [template.size]
  · intro p inside _
    have within : p < template.bits.length := by simpa using inside
    simp [bit, within]

theorem operandBits_reading : template.reading.operandBits =
    (List.range 32).reverse.filterMap fun p =>
      (template.bit p).letter?.map fun letter => (letter, p) := by
  rw [reading, Reading.downTo, zipIdx_bits, ← List.map_reverse, List.filterMap_map]
  rfl

theorem positions_reading :
    template.reading.positions letter = (template.positions letter).reverse := by
  rw [Reading.positions, operandBits_reading, List.filter_filterMap, List.map_filterMap,
    List.filterMap_reverse, positions, ← List.filterMap_eq_filter]
  congr 2
  funext p
  cases held : template.bit p with
  | operand other => by_cases same : other = letter <;> simp [held, same, Bit.letter?, Option.guard]
  | fixed set => simp [held, Bit.letter?, Option.guard]
  | free => simp [held, Bit.letter?, Option.guard]

theorem letters_reading : template.reading.letters = template.letters := by
  have bits : template.bits.zipIdx.reverse.map Prod.fst = template.bits.reverse := by
    rw [List.map_reverse, List.zipIdx_map_fst]
  rw [Reading.letters, letters, ← bits, List.filterMap_map, reading, Reading.downTo,
    List.map_filterMap]
  simp only [Option.map_map]
  congr 2
  funext bit
  exact Option.map_id'

theorem uses_reading : template.reading.uses letter = template.uses letter := by
  have held : template.reading.uses letter = true ↔ ∃ p, p ∈ template.reading.positions letter := by
    simp [Reading.uses, Reading.positions]
  rw [Bool.eq_iff_iff, held, uses_iff, positions_reading]
  simp only [List.mem_reverse]

theorem getLsbD_foldl_or (positions : List Nat) (mask : Word) (p : Nat) :
    (positions.foldl (fun mask p => mask ||| 1#32 <<< p) mask).getLsbD p =
      (mask.getLsbD p || (decide (p < 32) && decide (p ∈ positions))) := by
  induction positions generalizing mask with
  | nil => simp
  | cons q rest ih =>
    rw [List.foldl_cons, ih, BitVec.getLsbD_or, Reading.getLsbD_single, Bool.or_assoc]
    simp only [List.mem_cons, Bool.decide_or, Bool.and_or_distrib_left]

theorem letterMask_reading : template.reading.letterMask letter = template.letterMask letter := by
  apply BitVec.eq_of_getLsbD_eq
  intro p inside
  rw [Reading.letterMask, getLsbD_foldl_or, positions_reading, getLsbD_letterMask]
  simp [inside]

theorem runs_reading : template.reading.runs letter = template.runs letter := by
  apply template.runs_of_perm
  rw [positions_reading]
  exact List.reverse_perm _

theorem answers_reading (template : Template) : template.reading.Answers template where
  mask := by
    simp only [reading, Reading.downTo, pattern, bit, Nat.zero_le, decide_true, Bool.true_and]
    rfl
  value := by simp [reading, Reading.downTo, pattern, bit]
  letters := template.letters_reading
  uses := template.uses_reading
  letterWidth letter := by
    rw [Reading.letterWidth, positions_reading, List.length_reverse, letterWidth]
  letterMask := template.letterMask_reading
  runs := template.runs_reading
  insert raw letter value := by
    rw [Reading.insert, runs_reading, letterMask_reading, insert]

end Template

theorem Reading.ofText_of_parse {text : String} {template : Template}
    (parsed : Template.parse text = .ok template) :
    ∃ reading, ofText text = .ok reading ∧ reading.Answers template := by
  refine ⟨template.reading, ?_, template.answers_reading⟩
  rw [ofText_eq, parsed]
  rfl

theorem Reading.ofText_eq_error_iff {text : String} {error : TemplateError} :
    ofText text = .error error ↔ Template.parse text = .error error := by
  rw [ofText_eq]
  cases Template.parse text <;> simp [Except.map]

end OpenRisc
