import OpenRisc.Proofs.Table.Decoding
import OpenRisc.Proofs.Table.Operands
import OpenRisc.Proofs.Template.Insertion

set_option autoImplicit false

namespace OpenRisc

namespace Element

def numbers (operand : Operand) : Element → List (Char × Word)
  | .register letter => [(letter, operand.value)]
  | .immediate letter => [(letter, operand.value)]
  | .displacement value base => [(value, operand.value), (base, operand.base)]
  | .synthetic => []

theorem exists_mem_numbers (operand : Operand) {element : Element} {letter : Char}
    (named : letter ∈ element.letters) : ∃ number, (letter, number) ∈ element.numbers operand := by
  cases element with
  | register _ => exact ⟨operand.value, by simpa [numbers, letters] using named⟩
  | immediate _ => exact ⟨operand.value, by simpa [numbers, letters] using named⟩
  | displacement value base =>
    rcases List.mem_cons.mp named with rfl | named
    · exact ⟨operand.value, by simp [numbers]⟩
    · exact ⟨operand.base, by simp [numbers, List.mem_singleton.mp named]⟩
  | synthetic => simp [letters] at named

theorem eq_of_mem_numbers {template : Template} {raw : Word} {element : Element}
    {field : Char × Word} (member : field ∈ element.numbers (element.operand template raw)) :
    field.2 = template.value raw field.1 ∨ field.2 = template.number raw field.1 := by
  cases element with
  | register letter => simp_all [numbers, operand]
  | immediate letter => simp_all [numbers, operand]
  | displacement value base =>
    rcases List.mem_cons.mp member with rfl | member
    · exact .inl rfl
    · rw [List.mem_singleton.mp member]
      exact .inr rfl
  | synthetic => simp [numbers] at member

end Element

def Signature.numbers (elements : List Element) (operands : List Operand) : List (Char × Word) :=
  (elements.zip operands).flatMap fun pair => pair.1.numbers pair.2

theorem Signature.mem_numbers_operands {template : Template} {raw : Word} {elements : List Element}
    {field : Char × Word} :
    field ∈ numbers elements (elements.map (Element.operand template raw)) ↔
      ∃ element ∈ elements, field ∈ element.numbers (element.operand template raw) := by
  have pairs : elements.zip (elements.map (Element.operand template raw)) =
      elements.map fun element => (element, element.operand template raw) := by
    simpa using List.zip_map' (f := id) (g := Element.operand template raw) (l := elements)
  rw [numbers, pairs]
  simp

theorem Template.lastNumber_of_operands {template : Template} {source : Word}
    {elements : List Element} {inserts : List (Char × Word)}
    (same : ∀ field, field ∈ inserts ↔
      field ∈ Signature.numbers elements (elements.map (Element.operand template source)))
    {element : Element} (member : element ∈ elements) {letter : Char}
    (named : letter ∈ element.letters) (raw : Word) :
    template.lastNumber raw inserts letter = template.number source letter := by
  rw [lastNumber]
  split
  next value last =>
    have inserted : (letter, value) ∈ inserts := by
      obtain ⟨before, after, split, _⟩ := List.lookup_eq_some_iff.mp last
      rw [← List.mem_reverse, split]
      simp
    obtain ⟨other, _, read⟩ := Signature.mem_numbers_operands.mp ((same _).mp inserted)
    rcases Element.eq_of_mem_numbers read with stored | unsigned
    · rw [show value = template.value source letter from stored, value_and_lowMask]
    · rw [show value = template.number source letter from unsigned, number_and_lowMask]
  next absent =>
    obtain ⟨number, read⟩ := Element.exists_mem_numbers (element.operand template source) named
    have inserted := (same _).mpr (Signature.mem_numbers_operands.mpr ⟨element, member, read⟩)
    have other := List.lookup_eq_none_iff.mp absent _ (List.mem_reverse.mpr inserted)
    simp at other

namespace Element

theorem operand_insertAll (element : Element) (template : Template) (raw : Word)
    (inserts : List (Char × Word)) :
    element.operand template (template.insertAll raw inserts) =
      element.operandOf (fun letter => template.stored letter (template.lastNumber raw inserts letter))
        (template.lastNumber raw inserts) := by
  rw [operand_eq_operandOf]
  apply operandOf_congr
  · intro letter _
    rw [template.value_eq_stored, template.number_insertAll]
  · intro letter _
    exact template.number_insertAll raw inserts letter

theorem operand_of_operands {template : Template} {source : Word} {elements : List Element}
    {inserts : List (Char × Word)}
    (same : ∀ field, field ∈ inserts ↔
      field ∈ Signature.numbers elements (elements.map (operand template source)))
    (element : Element) (member : element ∈ elements) (raw : Word) :
    element.operand template (template.insertAll raw inserts) = element.operand template source := by
  rw [operand_insertAll, operand_eq_operandOf]
  apply operandOf_congr
  · intro letter named
    rw [Template.lastNumber_of_operands same member named, template.value_eq_stored]
  · intro letter named
    exact Template.lastNumber_of_operands same member named raw

end Element

namespace Table

theorem encodes_insertAll {opcodes : List Opcode} {index : Nat} {opcode : Opcode}
    (present : opcodes[index]? = some opcode) {template : Template}
    (parsed : Template.parse opcode.template = .ok template) {raw : Word}
    (encoded : Encodes opcodes raw index) (inserts : List (Char × Word)) :
    Encodes opcodes (template.insertAll raw inserts) index := by
  obtain ⟨other, also, found, reparsed, same⟩ := encoded
  rw [present, Option.some.injEq] at found
  subst found
  rw [parsed, Except.ok.injEq] at reparsed
  subst reparsed
  exact ⟨opcode, template, present, parsed, (template.insertAll_and_mask raw inserts).trans same⟩

/-- Each operand is the last number inserted for its field, or what it was before. -/
theorem extract_insertAll {opcodes : List Opcode} {table : Table}
    (done : compile opcodes = .ok table) {index : Nat} {opcode : Opcode}
    (present : opcodes[index]? = some opcode) :
    ∃ template elements, Template.parse opcode.template = .ok template ∧
      (∀ spelled, Signature.Spells opcode.signature spelled ↔ spelled = elements) ∧
      (∀ raw inserts, Encodes opcodes raw index →
        table.decode (template.insertAll raw inserts) = some index ∧
        table.extract (template.insertAll raw inserts) index =
          elements.map (Element.operandOf
            (fun letter => template.stored letter (template.lastNumber raw inserts letter))
            (template.lastNumber raw inserts)) ∧
        ∀ p, (∀ field ∈ inserts, template.bit p ≠ .operand field.1) →
          (template.insertAll raw inserts).getLsbD p = raw.getLsbD p) ∧
      ∀ source raw inserts, Encodes opcodes raw index →
        (∀ field, field ∈ inserts ↔
          field ∈ Signature.numbers elements (table.extract source index)) →
        table.decode (template.insertAll raw inserts) = some index ∧
          table.extract (template.insertAll raw inserts) index = table.extract source index := by
  obtain ⟨templates, compiled⟩ := compiled_of_compile done
  obtain ⟨template, elements, parsed, spells, extracted⟩ := compiled.evaluates present
  have decoded (raw : Word) (inserts : List (Char × Word)) (encoded : Encodes opcodes raw index) :
      table.decode (template.insertAll raw inserts) = some index :=
    (compiled.decode_eq_some _ _).mpr (encodes_insertAll present parsed encoded inserts)
  refine ⟨template, elements, parsed, spells, ?_, ?_⟩
  · refine fun raw inserts encoded => ⟨decoded raw inserts encoded, ?_, ?_⟩
    · rw [extracted]
      exact List.map_congr_left fun element _ => element.operand_insertAll template raw inserts
    · intro p outside
      apply template.getLsbD_insertAll_of_not_mem
      intro field member held
      exact outside field member ((template.mem_positions field.1 p).mp held).2
  · intro source raw inserts encoded same
    refine ⟨decoded raw inserts encoded, ?_⟩
    rw [extracted] at same ⊢
    rw [extracted]
    exact List.map_congr_left fun element member => Element.operand_of_operands same element member raw

theorem insertAll_storeWord :
    let inserts : List (Char × Word) := [('I', 0x1234), ('B', 9), ('A', 33), ('I', -4)]
    let operands : List Operand :=
      [{ kind := .displacement, value := -4, base := 1, signed := true },
        { kind := .register, value := 9 }]
    ∃ table template, compile [storeWord] = .ok table ∧
      Template.parse storeWord.template = .ok template ∧
      Encodes [storeWord] 0xD4000000 0 ∧
      table.decode (template.insertAll 0xD4000000 inserts) = some 0 ∧
      table.extract (template.insertAll 0xD4000000 inserts) 0 = operands ∧
      table.extract 0xD7E14FFC 0 = operands ∧
      table.extract (template.insertAll 0xD4000000 [('B', 9), ('A', 1), ('I', -4)]) 0 = operands := by
  intro inserts operands
  obtain ⟨table, done⟩ := Traversal.exists_of_isOk
    (show (compile [storeWord]).isOk = true by decide +kernel)
  obtain ⟨template, elements, parsed, spells, inserted, returned⟩ :=
    @extract_insertAll [storeWord] table done 0 storeWord rfl
  have spelled := (spells [.displacement 'I' 'A', .register 'B']).mp
    (.inr ⟨by simp, by decide, by decide⟩)
  subst spelled
  have encodes (raw : Word) (accepted : storeWord.accepts raw = true) :
      Encodes [storeWord] raw 0 :=
    encodes_iff_accepts.mpr ⟨storeWord, rfl, accepted⟩
  have evaluated (raw : Word) (inserts : List (Char × Word))
      (value : (Template.parse storeWord.template).toOption.map (fun template =>
        [Element.displacement 'I' 'A', .register 'B'].map (Element.operandOf
          (fun letter => template.stored letter (template.lastNumber raw inserts letter))
          (template.lastNumber raw inserts))) = some operands) (accepted : storeWord.accepts raw) :
      table.extract (template.insertAll raw inserts) 0 = operands := by
    rw [parsed] at value
    exact ((inserted raw inserts (encodes raw accepted)).2.1).trans (Option.some.inj value)
  have target := encodes 0xD4000000 (by decide +kernel)
  have source : table.extract 0xD7E14FFC 0 = operands :=
    evaluated 0xD7E14FFC [] (by decide +kernel) (by decide +kernel)
  refine ⟨table, template, done, parsed, target, (inserted _ inserts target).1,
    evaluated _ inserts (by decide +kernel) (by decide +kernel), source, ?_⟩
  refine ((returned 0xD7E14FFC _ _ target fun field => ?_).2).trans source
  rw [source]
  simp [Signature.numbers, Element.numbers, operands, or_assoc, or_comm, or_left_comm]

end Table

end OpenRisc
