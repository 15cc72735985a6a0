import OpenRisc.Proofs.Template.Insertion
import OpenRisc.Proofs.Traversal
import OpenRisc.Proofs.Template.Reading

set_option autoImplicit false

namespace OpenRisc.Template

variable (template : Template)

theorem eq_of_number_eq (letter : Char) {left right : Word}
    (inside : template.number left letter = template.number right letter)
    (outside : ∀ p, p ∉ template.positions letter → left.getLsbD p = right.getLsbD p) :
    left = right := by
  apply BitVec.eq_of_getLsbD_eq
  intro p _
  by_cases member : p ∈ template.positions letter
  next =>
    have held := ((template.mem_positions letter p).mp member).2
    exact (template.number_eq_iff letter left right).mp inside p held
  next => exact outside p member

theorem getLsbD_insert_congr {left right : Word} {p : Nat}
    (same : left.getLsbD p = right.getLsbD p) (letter : Char) (value : Word) :
    (template.insert left letter value).getLsbD p =
      (template.insert right letter value).getLsbD p := by
  by_cases member : p ∈ template.positions letter
  next =>
    obtain ⟨k, present⟩ := List.mem_iff_getElem?.mp member
    rw [template.getLsbD_insert left present, template.getLsbD_insert right present]
  next =>
    rw [template.getLsbD_insert_of_not_mem left member,
      template.getLsbD_insert_of_not_mem right member, same]

theorem insert_number (raw : Word) (letter : Char) :
    template.insert raw letter (template.number raw letter) = raw := by
  refine template.eq_of_number_eq letter ?_ ?_
  next => rw [number_insert, number_and_lowMask]
  next => exact fun p outside => template.getLsbD_insert_of_not_mem raw outside _

theorem insert_insert (raw : Word) (letter : Char) (first second : Word) :
    template.insert (template.insert raw letter first) letter second =
      template.insert raw letter second := by
  refine template.eq_of_number_eq letter ?_ ?_
  next => rw [number_insert, number_insert]
  next =>
    intro p outside
    simp only [template.getLsbD_insert_of_not_mem _ outside]

theorem insert_comm (raw : Word) {letter other : Char} (different : other ≠ letter)
    (first second : Word) :
    template.insert (template.insert raw letter first) other second =
      template.insert (template.insert raw other second) letter first := by
  refine template.eq_of_number_eq letter ?_ ?_
  next => rw [number_insert_of_ne _ _ different.symm, number_insert, number_insert]
  next =>
    intro p outside
    have before := template.getLsbD_insert_of_not_mem raw outside first
    have after := template.getLsbD_insert_of_not_mem (template.insert raw other second) outside first
    rw [after, template.getLsbD_insert_congr before]

theorem insert_and_not_letterMask (raw : Word) (letter : Char) (value : Word) :
    template.insert raw letter value &&& ~~~template.letterMask letter =
      raw &&& ~~~template.letterMask letter := by
  apply BitVec.eq_of_getLsbD_eq
  intro p _
  rw [BitVec.getLsbD_and, BitVec.getLsbD_and, BitVec.getLsbD_not, getLsbD_letterMask]
  by_cases member : p ∈ template.positions letter
  next => simp [member]
  next => rw [template.getLsbD_insert_of_not_mem raw member]

theorem insert_of_absent (raw : Word) {letter : Char} (absent : template.uses letter = false)
    (value : Word) : template.insert raw letter value = raw := by
  have nowhere (p : Nat) : p ∉ template.positions letter := by
    intro member
    have used := (template.uses_iff letter).mpr ⟨p, member⟩
    simp [absent] at used
  apply BitVec.eq_of_getLsbD_eq
  exact fun p _ => template.getLsbD_insert_of_not_mem raw (nowhere p) value

theorem accepts_insert (raw : Word) (letter : Char) (value : Word) :
    template.pattern.accepts (template.insert raw letter value) = template.pattern.accepts raw := by
  have kept := template.insertAll_and_mask raw [(letter, value)]
  rw [insertAll, List.foldl_cons, List.foldl_nil] at kept
  rw [Pattern.accepts, Pattern.accepts, kept]

/-- Writing a field obeys the laws of a record. -/
theorem insert_lawful (letter : Char) :
    (∀ raw value, template.read (template.insert raw letter value) letter =
        value &&& Word.lowMask (template.letterWidth letter)) ∧
      (∀ raw, template.insert raw letter (template.read raw letter) = raw) ∧
      (∀ raw first second, template.insert (template.insert raw letter first) letter second =
        template.insert raw letter second) ∧
      (∀ other, other ≠ letter → ∀ raw first second,
        template.insert (template.insert raw letter first) other second =
            template.insert (template.insert raw other second) letter first ∧
          template.read (template.insert raw letter first) other = template.read raw other) ∧
      (∀ raw value, template.insert raw letter value &&& ~~~template.letterMask letter =
        raw &&& ~~~template.letterMask letter) ∧
      (template.uses letter = false → ∀ raw value, template.insert raw letter value = raw) ∧
      (∀ raw value, template.pattern.accepts (template.insert raw letter value) =
        template.pattern.accepts raw) ∧
      ∀ text, parse text = .ok template → ∃ reading, Reading.ofText text = .ok reading ∧
        ∀ raw value, reading.insert raw letter value = template.insert raw letter value := by
  simp only [read_eq_number]
  refine ⟨?_, ?_, ?_, ?_, ?_, ?_, ?_, ?_⟩
  next => exact fun raw value => template.number_insert raw letter value
  next => exact fun raw => template.insert_number raw letter
  next => exact fun raw => template.insert_insert raw letter
  next =>
    intro other different raw first second
    exact ⟨template.insert_comm raw different first second,
      template.number_insert_of_ne raw different first⟩
  next => exact fun raw => template.insert_and_not_letterMask raw letter
  next => exact fun absent raw => template.insert_of_absent raw absent
  next => exact fun raw => template.accepts_insert raw letter
  next =>
    intro text parsed
    obtain ⟨reading, read, answers⟩ := Reading.ofText_of_parse parsed
    exact ⟨reading, read, fun raw value => answers.insert raw letter value⟩

theorem insert_lawful_splitField :
    ∃ template, parse "11 0x5 IIIII AAAAA BBBB BIII IIII IIII" = .ok template ∧
      'B' ≠ 'I' ∧ template.uses 'K' = false ∧
      template.read (template.insert 0xD4000000 'I' 0x1FFFC) 'I' = 0xFFFC ∧
      template.insert (template.insert 0xD4000000 'I' 0x1FFFC) 'B' 9 =
        template.insert (template.insert 0xD4000000 'B' 9) 'I' 0x1FFFC ∧
      template.insert 0xD4000000 'K' 0xFFFF = 0xD4000000 := by
  obtain ⟨template, parsed⟩ := Traversal.exists_of_isOk
    (show (parse "11 0x5 IIIII AAAAA BBBB BIII IIII IIII").isOk = true by decide +kernel)
  have fields : ((parse "11 0x5 IIIII AAAAA BBBB BIII IIII IIII").map fun template =>
      (template.letterWidth 'I', template.uses 'K')) = .ok (16, false) := by decide +kernel
  rw [parsed] at fields
  have fields := Except.ok.inj fields
  have width : template.letterWidth 'I' = 16 := congrArg Prod.fst fields
  have absent : template.uses 'K' = false := congrArg Prod.snd fields
  have different : 'B' ≠ 'I' := by decide
  obtain ⟨back, _, _, apart, _⟩ := template.insert_lawful 'I'
  obtain ⟨_, _, _, _, _, nothing, _⟩ := template.insert_lawful 'K'
  refine ⟨template, parsed, different, absent, ?_, ?_, ?_⟩
  next =>
    rw [back, width]
    decide
  next => exact (apart 'B' different _ _ _).1
  next => exact nothing absent _ _

end OpenRisc.Template
