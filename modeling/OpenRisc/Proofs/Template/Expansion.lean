import Mathlib.Data.List.Forall2
import OpenRisc.Proofs.Text.Ascii
import OpenRisc.Proofs.Text.Pieces
import OpenRisc.Proofs.Traversal
import OpenRisc.Template.Basic

set_option autoImplicit false

namespace OpenRisc

def IsBitChar (c : Char) : Prop :=
  c = '0' ∨ c = '1' ∨ c = '-' ∨ c.isAlpha = true

def Bit.ofChar : Char → Bit
  | '0' => .fixed false
  | '1' => .fixed true
  | '-' => .free
  | c => .operand c

theorem Bit.ofChar_of_isAlpha {letter : Char} (alphabetic : letter.isAlpha = true) :
    Bit.ofChar letter = .operand letter := by
  unfold Bit.ofChar
  split
  next => exact absurd alphabetic (by decide)
  next => exact absurd alphabetic (by decide)
  next => exact absurd alphabetic (by decide)
  next => rfl

theorem Bit.fixed_ofChar {c : Char} (legal : IsBitChar c) :
    ((Bit.ofChar c matches .fixed _) = true ↔ c = '0' ∨ c = '1') ∧
      ((Bit.ofChar c == .fixed true) = true ↔ c = '1') := by
  rcases legal with rfl | rfl | rfl | alphabetic
  · decide
  · decide
  · decide
  · have zero : c ≠ '0' := Text.ne_of_isAlpha alphabetic (by decide)
    have one : c ≠ '1' := Text.ne_of_isAlpha alphabetic (by decide)
    simp [Bit.ofChar_of_isAlpha alphabetic, zero, one]

theorem Bit.operand_ofChar {c : Char} (legal : IsBitChar c) (letter : Char) :
    (Bit.ofChar c == .operand letter) = true ↔ c = letter ∧ letter.isAlpha = true := by
  rw [beq_iff_eq]
  by_cases alphabetic : c.isAlpha = true
  · rw [Bit.ofChar_of_isAlpha alphabetic, Bit.operand.injEq]
    exact ⟨fun same => ⟨same, same ▸ alphabetic⟩, And.left⟩
  · have mark : c = '0' ∨ c = '1' ∨ c = '-' := by simpa [IsBitChar, alphabetic] using legal
    have unlettered : Bit.ofChar c ≠ .operand letter := by
      rcases mark with rfl | rfl | rfl <;> nofun
    exact ⟨fun same => absurd same unlettered, fun ⟨same, also⟩ => absurd (same ▸ also) alphabetic⟩

def binary (value : Nat) : List Char :=
  [3, 2, 1, 0].map fun p => if value.testBit p then '1' else '0'

namespace Template

/-- The characters that a word of a template stands for, one for each bit. -/
inductive Expands : List Char → List Char → Prop where
  | nibble {digit : Char} {value : Nat} (hex : Text.IsHexDigit digit value) :
    Expands ['0', 'x', digit] (binary value)
  | bits {word : List Char} (plain : ¬ ['0', 'x'] <+: word) (legal : ∀ c ∈ word, IsBitChar c) :
    Expands word word

/-- What is wrong with a word that stands for no bits. -/
inductive Defect : List Char → TemplateError → Prop where
  | nibble {digits : List Char}
    (malformed : ∀ digit value, Text.IsHexDigit digit value → digits ≠ [digit]) :
    Defect ('0' :: 'x' :: digits) (.invalidNibble (String.ofList ('0' :: 'x' :: digits)))
  | char {front back : List Char} {c : Char} (plain : ¬ ['0', 'x'] <+: front ++ c :: back)
    (legal : ∀ other ∈ front, IsBitChar other) (illegal : ¬ IsBitChar c) :
    Defect (front ++ c :: back) (.unexpectedChar c)

end Template

namespace Token

theorem bits_nibble (value : Nat) :
    (Token.nibble (BitVec.ofNat 4 value)).bits = (binary value).map Bit.ofChar := by
  rw [bits, binary, List.map_map]
  apply List.map_congr_left
  intro p member
  have inside : p < 4 := by
    have bound : ∀ p ∈ [3, 2, 1, 0], p < 4 := by decide
    exact bound p member
  rw [BitVec.getLsbD_ofNat, decide_eq_true inside, Bool.true_and]
  cases set : value.testBit p <;> simp [set, Bit.ofChar]

theorem ofChar_eq_ok {c : Char} (legal : IsBitChar c) : ofChar c = .ok (.bit (Bit.ofChar c)) := by
  rcases legal with rfl | rfl | rfl | alphabetic
  · rfl
  · rfl
  · rfl
  · unfold ofChar
    split
    next => rfl
    next => rfl
    next => rfl
    next => rw [if_pos alphabetic, Bit.ofChar_of_isAlpha alphabetic]

theorem ofChar_eq_error {c : Char} (illegal : ¬ IsBitChar c) :
    ofChar c = .error (.unexpectedChar c) := by
  unfold ofChar
  split
  next => exact absurd (.inl rfl) illegal
  next => exact absurd (.inr (.inl rfl)) illegal
  next => exact absurd (.inr (.inr (.inl rfl))) illegal
  next => exact if_neg fun alphabetic => illegal (.inr (.inr (.inr alphabetic)))

theorem ofWord_of_plain {word : List Char} (plain : ¬ ['0', 'x'] <+: word) :
    ofWord word = word.mapM ofChar := by
  unfold ofWord
  split
  next digits => exact absurd ⟨digits, rfl⟩ plain
  next => rfl

theorem ofWord_nibble {digit : Char} {value : Nat} (hex : Text.IsHexDigit digit value) :
    ofWord ['0', 'x', digit] = .ok [.nibble (BitVec.ofNat 4 value)] := by
  simp only [ofWord, Text.hexValue?_eq_some_iff.mpr hex]

theorem ofWord_malformed {digits : List Char}
    (malformed : ∀ digit value, Text.IsHexDigit digit value → digits ≠ [digit]) :
    ofWord ('0' :: 'x' :: digits) =
      .error (.invalidNibble (String.ofList ('0' :: 'x' :: digits))) := by
  match digits with
  | [] => rfl
  | [digit] =>
    cases read : Text.hexValue? digit with
    | none => simp only [ofWord, read]
    | some value =>
      exact absurd rfl (malformed digit value (Text.hexValue?_eq_some_iff.mp read))
  | _ :: _ :: _ => rfl

theorem ofWord_of_expands {word chars : List Char} (expands : Template.Expands word chars) :
    ∃ tokens, ofWord word = .ok tokens ∧ tokens.flatMap bits = chars.map Bit.ofChar := by
  cases expands with
  | nibble hex => exact ⟨_, ofWord_nibble hex, by rw [List.flatMap_singleton, bits_nibble]⟩
  | bits plain legal =>
    refine ⟨word.map fun c => .bit (Bit.ofChar c), ?_, ?_⟩
    · rw [ofWord_of_plain plain, Traversal.mapM_eq_ok_iff, List.map_map]
      exact List.map_congr_left fun c member => ofChar_eq_ok (legal c member)
    · rw [List.flatMap_map, List.map_eq_flatMap]
      rfl

theorem ofWord_of_defect {word : List Char} {error : TemplateError}
    (defect : Template.Defect word error) : ofWord word = .error error := by
  cases defect with
  | nibble malformed => exact ofWord_malformed malformed
  | char plain legal illegal =>
    rw [ofWord_of_plain plain, Traversal.mapM_eq_error_iff]
    exact ⟨_, _, _, rfl, fun other member => ⟨_, ofChar_eq_ok (legal other member)⟩,
      ofChar_eq_error illegal⟩

end Token

namespace Template

theorem expands_or_defect (word : List Char) :
    (∃ chars, Expands word chars) ∨ ∃ error, Defect word error := by
  by_cases marked : ['0', 'x'] <+: word
  · obtain ⟨digits, rfl⟩ := marked
    by_cases nibble : ∃ digit value, Text.IsHexDigit digit value ∧ digits = [digit]
    · obtain ⟨digit, value, hex, rfl⟩ := nibble
      exact .inl ⟨_, .nibble hex⟩
    · exact .inr ⟨_, .nibble fun digit value hex same => nibble ⟨digit, value, hex, same⟩⟩
  · by_cases legal : ∀ c ∈ word, IsBitChar c
    · exact .inl ⟨_, .bits marked legal⟩
    · obtain ⟨front, c, back, rfl, before, illegal⟩ := Traversal.exists_first legal
      exact .inr ⟨_, .char marked before illegal⟩

theorem exists_tokens_iff {word : List Char} :
    (∃ tokens, Token.ofWord word = .ok tokens) ↔ ∃ chars, Expands word chars := by
  constructor
  · rintro ⟨tokens, read⟩
    rcases expands_or_defect word with expands | ⟨error, defect⟩
    · exact expands
    · rw [Token.ofWord_of_defect defect] at read
      cases read
  · rintro ⟨chars, expands⟩
    obtain ⟨tokens, read, _⟩ := Token.ofWord_of_expands expands
    exact ⟨tokens, read⟩

theorem ofWord_eq_error_iff {word : List Char} {error : TemplateError} :
    Token.ofWord word = .error error ↔ Defect word error := by
  constructor
  · intro failed
    rcases expands_or_defect word with ⟨chars, expands⟩ | ⟨other, defect⟩
    · obtain ⟨tokens, read, _⟩ := Token.ofWord_of_expands expands
      rw [read] at failed
      cases failed
    · rw [Token.ofWord_of_defect defect, Except.error.injEq] at failed
      exact failed ▸ defect
  · exact Token.ofWord_of_defect

def Expansion (text : String) (chars : List Char) : Prop :=
  ∃ parts, List.Forall₂ Expands (Text.words text.toList) parts ∧ chars = parts.flatten

def FirstDefect (text : String) (error : TemplateError) : Prop :=
  ∃ front word back, Text.words text.toList = front ++ word :: back ∧
    (∀ other ∈ front, ∃ chars, Expands other chars) ∧ Defect word error

theorem isBitChar_of_expands {word chars : List Char} (expands : Expands word chars) :
    ∀ c ∈ chars, IsBitChar c := by
  cases expands with
  | nibble hex =>
    intro c member
    obtain ⟨p, _, rfl⟩ := List.mem_map.mp member
    split
    next => exact .inr (.inl rfl)
    next => exact .inl rfl
  | bits _ legal => exact legal

theorem isBitChar_of_expansion {text : String} {chars : List Char}
    (expansion : Expansion text chars) : ∀ c ∈ chars, IsBitChar c := by
  obtain ⟨parts, expands, rfl⟩ := expansion
  generalize Text.words text.toList = words at expands
  induction expands with
  | nil => simp
  | cons here _ ih =>
    rw [List.flatten_cons]
    exact List.forall_mem_append.mpr ⟨isBitChar_of_expands here, ih⟩

theorem length_of_expands {word chars : List Char} (expands : Expands word chars) :
    3 * chars.length ≤ 4 * word.length := by
  cases expands with
  | nibble hex => simp [binary]
  | bits plain legal => omega

theorem length_of_expansion {text : String} {chars : List Char} (expansion : Expansion text chars) :
    3 * chars.length ≤ 4 * text.length := by
  obtain ⟨parts, expands, rfl⟩ := expansion
  have written : 3 * parts.flatten.length ≤ 4 * (Text.words text.toList).flatten.length := by
    generalize Text.words text.toList = words at expands
    induction expands with
    | nil => simp
    | cons here _ ih =>
      have first := length_of_expands here
      simp only [List.flatten_cons, List.length_append]
      omega
  have kept : (Text.words text.toList).flatten.length ≤ text.toList.length := by
    rw [Text.flatten_words]
    exact List.length_filter_le _ _
  rw [String.length_toList] at kept
  omega

theorem tokens_of_expands {words parts : List (List Char)}
    (expands : List.Forall₂ Expands words parts) :
    ∃ tokens, words.mapM Token.ofWord = .ok tokens ∧
      tokens.flatten.flatMap Token.bits = parts.flatten.map Bit.ofChar := by
  induction expands with
  | nil => exact ⟨[], rfl, rfl⟩
  | cons here _ ih =>
    obtain ⟨first, read, bits⟩ := Token.ofWord_of_expands here
    obtain ⟨others, later, rest⟩ := ih
    refine ⟨first :: others, ?_, ?_⟩
    · simp [read, later, bind, Except.bind, pure, Except.pure]
    · rw [List.flatten_cons, List.flatMap_append, bits, rest, List.flatten_cons, List.map_append]

theorem tokenize_eq_error_iff {text : String} {error : TemplateError} :
    tokenize text = .error error ↔ FirstDefect text error := by
  have failed : tokenize text = .error error ↔
      (Text.words text.toList).mapM Token.ofWord = .error error := by
    cases read : (Text.words text.toList).mapM Token.ofWord <;>
      simp [tokenize, read, bind, Except.bind, pure, Except.pure]
  rw [failed, Traversal.mapM_eq_error_iff]
  simp only [exists_tokens_iff, ofWord_eq_error_iff, FirstDefect]

theorem parse_of_expansion {text : String} {chars : List Char} (expansion : Expansion text chars) :
    (chars.length = 32 →
      ∃ template, parse text = .ok template ∧ template.bits = (chars.map Bit.ofChar).reverse) ∧
      (chars.length ≠ 32 → parse text = .error (.width chars.length)) := by
  obtain ⟨parts, expands, rfl⟩ := expansion
  obtain ⟨tokens, read, bits⟩ := tokens_of_expands expands
  have tokenized : tokenize text = .ok tokens.flatten := by
    simp [tokenize, read, bind, Except.bind, pure, Except.pure]
  have size : (tokens.flatten.flatMap Token.bits).reverse.length = parts.flatten.length := by
    rw [List.length_reverse, bits, List.length_map]
  constructor
  · intro full
    refine ⟨⟨_, size.trans full⟩, ?_, congrArg List.reverse bits⟩
    simp only [parse, tokenized, bind, Except.bind]
    exact dif_pos (size.trans full)
  · intro other
    simp only [parse, tokenized, bind, Except.bind]
    rw [dif_neg (size ▸ other), size]

theorem parse_of_firstDefect {text : String} {error : TemplateError}
    (defect : FirstDefect text error) : parse text = .error error := by
  simp only [parse, tokenize_eq_error_iff.mpr defect, bind, Except.bind]

theorem expansion_or_defect (text : String) :
    (∃ chars, Expansion text chars) ∨ ∃ error, FirstDefect text error := by
  by_cases expand : ∀ word ∈ Text.words text.toList, ∃ chars, Expands word chars
  · choose! chars expands using expand
    exact .inl ⟨_, _, List.forall₂_map_right_iff.mpr (List.forall₂_same.mpr expands), rfl⟩
  · obtain ⟨front, word, back, words, before, refused⟩ := Traversal.exists_first expand
    obtain ⟨error, defect⟩ := (expands_or_defect word).resolve_left refused
    exact .inr ⟨error, front, word, back, words, before, defect⟩

theorem exists_expansion_of_parse {text : String} {template : Template}
    (parsed : parse text = .ok template) : ∃ chars, Expansion text chars := by
  rcases expansion_or_defect text with expansion | ⟨error, defect⟩
  · exact expansion
  · rw [parse_of_firstDefect defect] at parsed
    cases parsed

theorem bits_of_parse {text : String} {template : Template} {chars : List Char}
    (parsed : parse text = .ok template) (expansion : Expansion text chars) :
    chars.length = 32 ∧ template.bits = (chars.map Bit.ofChar).reverse := by
  obtain ⟨accepted, refused⟩ := parse_of_expansion expansion
  by_cases full : chars.length = 32
  · obtain ⟨_, same, bits⟩ := accepted full
    rw [parsed, Except.ok.injEq] at same
    exact ⟨full, same ▸ bits⟩
  · rw [refused full] at parsed
    cases parsed

theorem parse_eq_error_iff {text : String} {error : TemplateError} :
    parse text = .error error ↔ FirstDefect text error ∨
      ∃ chars, Expansion text chars ∧ chars.length ≠ 32 ∧ error = .width chars.length := by
  constructor
  · intro failed
    rcases expansion_or_defect text with ⟨chars, expansion⟩ | ⟨other, defect⟩
    · obtain ⟨accepted, refused⟩ := parse_of_expansion expansion
      have short : chars.length ≠ 32 := by
        intro full
        obtain ⟨template, parsed, _⟩ := accepted full
        rw [parsed] at failed
        cases failed
      rw [refused short, Except.error.injEq] at failed
      exact .inr ⟨chars, expansion, short, failed.symm⟩
    · rw [parse_of_firstDefect defect, Except.error.injEq] at failed
      exact .inl (failed ▸ defect)
  · rintro (defect | ⟨chars, expansion, short, rfl⟩)
    · exact parse_of_firstDefect defect
    · exact (parse_of_expansion expansion).2 short

end Template

end OpenRisc
