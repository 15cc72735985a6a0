import OpenRisc.Program.Emit
import OpenRisc.Proofs.Program.Operands

set_option autoImplicit false

namespace OpenRisc.Program

variable {template : Template} {table : LetterTable}

theorem modify_push (steps : Array Step) (last : Step) (change : Step → Step) :
    (steps.push last).modify steps.size change = steps.push (change last) := by
  ext i inside _
  · simp
  · rw [Array.size_modify, Array.size_push] at inside
    rw [Array.getElem_modify, Array.getElem_push, Array.getElem_push]
    by_cases final : i = steps.size
    · simp [final]
    · simp [Ne.symm final, show i < steps.size by omega]

theorem patchLast_append {kept : Nat} {steps : Array Step} (room : kept ≤ steps.size)
    (change : Step → Step) {new : Program} (nonempty : new ≠ []) :
    patchLast kept change (steps ++ new.toArray) = steps ++ (mapLast change new).toArray := by
  obtain ⟨front, last, rfl⟩ := exists_concat nonempty
  have split (last : Step) :
      steps ++ (front ++ [last]).toArray = (steps ++ front.toArray).push last := by simp
  have behind : kept < (steps ++ (front ++ [last]).toArray).size := by
    simp
    omega
  rw [patchLast, if_pos behind, mapLast_concat, split, split, Array.size_push, Nat.add_sub_cancel,
    modify_push]

theorem emitField_eq (model : Step) (letter : Char) (steps : Array Step) :
    emitField template table model letter steps =
      (fieldSteps template table model letter).map fun new => steps ++ new.toArray := by
  rw [emitField, fieldSteps]
  cases table.get? letter with
  | none => rfl
  | some info =>
    cases template.runs letter with
    | nil => rfl
    | cons run runs =>
      have patched (change : Step → Step) := patchLast_append (Nat.le_refl steps.size) change
        (show (run :: runs).map (fun run => { model with run }) ≠ [] by simp)
      cases signed : info.signed && !model.isBase with
      | true =>
        simp only [signed, if_true]
        exact congrArg Except.ok (patched _)
      | false =>
        simp only [signed]
        rfl

theorem emitElement_eq (slot : Nat) (element : Element) (steps : Array Step) :
    emitElement template table slot steps element =
      (elementSteps template table slot element).map fun new => steps ++ new.toArray := by
  cases element with
  | register letter => exact emitField_eq _ letter steps
  | immediate letter => exact emitField_eq _ letter steps
  | displacement value base =>
    rw [emitElement, elementSteps, emitField_eq]
    cases fieldSteps template table { slot } value with
    | error failure => rfl
    | ok values =>
      change emitField template table _ base (steps ++ values.toArray) = _
      rw [emitField_eq]
      cases fieldSteps template table { slot, isRegister := true, isBase := true } base with
      | error failure => rfl
      | ok bases => simp [Except.map, bind, Except.bind, pure, Except.pure]
  | synthetic => simp [emitElement, elementSteps, Except.map]

theorem elementSteps_ne_nil {slot : Nat} {element : Element} {steps : Program}
    (done : elementSteps template table slot element = .ok steps) : steps ≠ [] := by
  cases element with
  | register letter => exact (silent_of_fieldSteps done rfl rfl).1
  | immediate letter => exact (silent_of_fieldSteps done rfl rfl).1
  | displacement value base =>
    rw [elementSteps] at done
    obtain ⟨values, first, done⟩ := Traversal.bind_eq_ok_iff.mp done
    obtain ⟨bases, second, done⟩ := Traversal.bind_eq_ok_iff.mp done
    cases done
    simp [(silent_of_fieldSteps first rfl rfl).1]
  | synthetic =>
    cases done
    simp

-- An operand has a step, so its flag never lands on the operand before.
theorem emitOperand_eq (element : Element × Nat) (steps : Array Step) :
    emitOperand template table steps element =
      (operandSteps template table element).map fun new => steps ++ new.toArray := by
  rw [emitOperand, operandSteps, emitElement_eq]
  cases done : elementSteps template table element.2 element.1 with
  | error failure => rfl
  | ok new =>
    exact congrArg Except.ok (patchLast_append (Nat.zero_le _) _ (elementSteps_ne_nil done))

theorem foldlM_emitOperand (elements : List (Element × Nat)) (steps : Array Step) :
    elements.foldlM (emitOperand template table) steps =
      (elements.mapM (operandSteps template table)).map fun parts =>
        steps ++ parts.flatten.toArray := by
  induction elements generalizing steps with
  | nil => simp [Except.map, pure, Except.pure]
  | cons element rest ih =>
    rw [List.foldlM_cons, List.mapM_cons, emitOperand_eq]
    cases operandSteps template table element with
    | error failure => rfl
    | ok new =>
      change rest.foldlM (emitOperand template table) (steps ++ new.toArray) = _
      rw [ih]
      cases rest.mapM (operandSteps template table) with
      | error failure => rfl
      | ok parts => simp [Except.map, bind, Except.bind, pure, Except.pure]

theorem emit_eq_compile (template : Template) (table : LetterTable) (signature : String) :
    emit template table signature = (compile template table signature).map List.toArray := by
  rw [emit, compile]
  cases Signature.parse signature with
  | error offset => rfl
  | ok elements =>
    by_cases many : maxOperands < elements.length
    · simp only [if_pos many]
      rfl
    · simp only [if_neg many, ofElements, foldlM_emitOperand]
      cases elements.zipIdx.mapM (operandSteps template table) with
      | error failure => rfl
      | ok parts =>
        have ended (some : parts.flatten ≠ []) := patchLast_append
          (Nat.zero_le (#[] : Array Step).size) (fun step => { step with terminal := true }) some
        simp only [Array.empty_append] at ended
        by_cases empty : parts.flatten = []
        · simp [Except.map, bind, Except.bind, pure, Except.pure, empty, mapLast, patchLast]
        · simp only [Array.empty_append]
          exact congrArg Except.ok (ended empty)

end OpenRisc.Program
