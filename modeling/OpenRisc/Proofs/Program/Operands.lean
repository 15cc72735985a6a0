import OpenRisc.Proofs.Program.Fields
import OpenRisc.Proofs.Traversal

set_option autoImplicit false

namespace OpenRisc

/-- The operand that an element of the signature names, read off `raw` without a program. -/
def Element.operand (template : Template) (raw : Word) : Element → Operand
  | .register letter =>
    { kind := .register, value := template.value raw letter, signed := isSigned letter
      isDestination := letter == 'D' }
  | .immediate letter =>
    { kind := .immediate, value := template.value raw letter, signed := isSigned letter }
  | .displacement value base =>
    { kind := .displacement, value := template.value raw value, base := template.number raw base
      signed := isSigned value }
  | .synthetic => { kind := .synthetic, value := 0 }

namespace Element

def operandOf (value base : Char → Word) : Element → Operand
  | .register letter =>
    { kind := .register, value := value letter, signed := isSigned letter
      isDestination := letter == 'D' }
  | .immediate letter =>
    { kind := .immediate, value := value letter, signed := isSigned letter }
  | .displacement letter origin =>
    { kind := .displacement, value := value letter, base := base origin
      signed := isSigned letter }
  | .synthetic => { kind := .synthetic, value := 0 }

theorem operand_eq_operandOf (template : Template) (raw : Word) (element : Element) :
    element.operand template raw =
      element.operandOf (template.value raw) (template.number raw) := by
  cases element <;> rfl

theorem operandOf_congr {value value' base base' : Char → Word} {element : Element}
    (values : ∀ letter ∈ element.letters, value letter = value' letter)
    (bases : ∀ letter ∈ element.letters, base letter = base' letter) :
    element.operandOf value base = element.operandOf value' base' := by
  cases element <;> simp_all [operandOf, letters]

end Element

namespace Program

variable {template : Template} {table : LetterTable} {elements : List Element}

structure Evaluates (template : Template) (element : Element) (steps : Program) : Prop where
  nonempty : steps ≠ []
  silent : Silent steps
  gathers : ∀ raw, gather raw {} steps = element.operand template raw
  uses : ∀ letter ∈ element.letters, template.uses letter = true

theorem evaluates_of_elementSteps (agrees : table.Agrees template) {slot : Nat} {element : Element}
    {steps : Program} (done : elementSteps template table slot element = .ok steps) :
    Evaluates template element steps := by
  cases element with
  | register letter =>
    rw [elementSteps] at done
    obtain ⟨nonempty, silent⟩ := silent_of_fieldSteps done rfl rfl
    exact ⟨nonempty, silent, gather_values agrees done rfl rfl,
      List.forall_mem_singleton.mpr (uses_of_fieldSteps done)⟩
  | immediate letter =>
    rw [elementSteps] at done
    obtain ⟨nonempty, silent⟩ := silent_of_fieldSteps done rfl rfl
    exact ⟨nonempty, silent, gather_values agrees done rfl rfl,
      List.forall_mem_singleton.mpr (uses_of_fieldSteps done)⟩
  | displacement value base =>
    rw [elementSteps] at done
    obtain ⟨values, first, done⟩ := Traversal.bind_eq_ok_iff.mp done
    obtain ⟨bases, second, done⟩ := Traversal.bind_eq_ok_iff.mp done
    cases done
    obtain ⟨nonempty, silent⟩ := silent_of_fieldSteps first rfl rfl
    obtain ⟨_, also⟩ := silent_of_fieldSteps second rfl rfl
    refine ⟨by simp [nonempty], List.forall_mem_append.mpr ⟨silent, also⟩, ?_, ?_⟩
    · intro raw
      rw [gather_append, gather_values agrees first rfl rfl,
        gather_bases second rfl rfl raw rfl]
      rfl
    · intro letter member
      rcases List.mem_cons.mp member with rfl | member
      · exact uses_of_fieldSteps first
      · rw [List.mem_singleton.mp member]
        exact uses_of_fieldSteps second
  | synthetic =>
    rw [elementSteps, Except.ok.injEq] at done
    subst done
    refine ⟨by simp, by simp [Silent], ?_, by simp [Element.letters]⟩
    intro raw
    simp [gather, Step.apply, Step.extend, Step.merge, Step.kind, Run.fragment, Span.read,
      Element.operand, Word.lowMask]

theorem evaluates_of_operandSteps (agrees : table.Agrees template) {element : Element} {slot : Nat}
    {completed : Program} (done : operandSteps template table (element, slot) = .ok completed) :
    ∃ steps, Evaluates template element steps ∧
      completed = mapLast (fun step => { step with completesOperand := true }) steps := by
  rw [operandSteps] at done
  obtain ⟨steps, compiled, done⟩ := Traversal.bind_eq_ok_iff.mp done
  cases done
  exact ⟨steps, evaluates_of_elementSteps agrees compiled, rfl⟩

theorem extractFrom_flatten (agrees : table.Agrees template) {slot : Nat}
    {parts : List Program}
    (done : (elements.zipIdx slot).mapM (operandSteps template table) = .ok parts) (raw : Word)
    (operands : Operands) :
    extractFrom raw { operands } parts.flatten =
      (elements.map (Element.operand template raw)).foldl Operands.push operands := by
  rw [Traversal.mapM_eq_ok_iff] at done
  induction elements generalizing slot parts operands with
  | nil =>
    have none : parts = [] := by simpa using done.symm
    subst none
    rfl
  | cons element rest ih =>
    cases parts with
    | nil => simp at done
    | cons completed later =>
      rw [List.zipIdx_cons, List.map_cons, List.map_cons, List.cons.injEq] at done
      obtain ⟨steps, evaluates, rfl⟩ := evaluates_of_operandSteps agrees done.1
      rw [List.flatten_cons, extractFrom_operand evaluates.nonempty evaluates.silent,
        evaluates.gathers raw, ih done.2, List.map_cons, List.foldl_cons]

theorem ofElements_eq_ok {program : Program}
    (done : ofElements template table elements = .ok program) :
    ∃ operands, elements.zipIdx.mapM (operandSteps template table) = .ok operands ∧
      program = mapLast (fun step => { step with terminal := true }) operands.flatten := by
  rw [ofElements] at done
  obtain ⟨operands, compiled, done⟩ := Traversal.bind_eq_ok_iff.mp done
  cases done
  exact ⟨operands, compiled, rfl⟩

theorem uses_of_ofElements (agrees : table.Agrees template) {program : Program}
    (done : ofElements template table elements = .ok program) {element : Element}
    (member : element ∈ elements) {letter : Char} (named : letter ∈ element.letters) :
    template.uses letter = true := by
  obtain ⟨operands, compiled, _⟩ := ofElements_eq_ok done
  obtain ⟨slot, inside, same⟩ := List.mem_iff_getElem.mp member
  have item : elements.zipIdx[slot]? = some (element, slot) := by
    rw [List.getElem?_zipIdx, List.getElem?_eq_getElem inside, same, Option.map_some,
      Nat.zero_add]
  obtain ⟨completed, _, built⟩ := Traversal.read_of_mapM compiled item
  obtain ⟨steps, evaluates, _⟩ := evaluates_of_operandSteps agrees built
  exact evaluates.uses letter named

theorem compile_eq_ok {signature : String} {program : Program}
    (done : compile template table signature = .ok program) :
    ∃ elements, Signature.parse signature = .ok elements ∧ elements.length ≤ maxOperands ∧
      ofElements template table elements = .ok program := by
  rw [compile] at done
  split at done
  next => simp at done
  next elements parsed =>
    split at done
    next => simp at done
    next few => exact ⟨elements, parsed, Nat.le_of_not_lt few, done⟩

theorem extract_of_compile (agrees : table.Agrees template) {signature : String}
    {program : Program} (done : compile template table signature = .ok program) :
    ∃ elements, Signature.parse signature = .ok elements ∧
      (∀ element ∈ elements, ∀ letter ∈ element.letters, template.uses letter = true) ∧
      ∀ raw, program.extract raw = elements.map (Element.operand template raw) := by
  obtain ⟨elements, parsed, few, done⟩ := compile_eq_ok done
  refine ⟨elements, parsed, fun element member letter named =>
    uses_of_ofElements agrees done member named, fun raw => ?_⟩
  obtain ⟨parts, compiled, rfl⟩ := ofElements_eq_ok done
  have room : (elements.map (Element.operand template raw)).length ≤ maxOperands := by
    rwa [List.length_map]
  rw [extract, extractFrom_terminated, extractFrom_flatten agrees compiled raw,
    Operands.toList_foldl_push, Operands.toList_empty, List.nil_append, List.take_of_length_le room]

end Program

end OpenRisc
