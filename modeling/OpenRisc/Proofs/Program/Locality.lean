import OpenRisc.Proofs.LetterTable.Agreement
import OpenRisc.Program.Compile

set_option autoImplicit false

namespace OpenRisc

namespace LetterTable

structure Serves (table : LetterTable) (template : Template) : Prop where
  agrees : table.Agrees template
  knows : ∀ letter, template.uses letter = true → ∃ info, table.get? letter = some info

theorem serves_of_build {templates : List Template} {table : LetterTable}
    (built : build templates = .ok table) {template : Template} (present : template ∈ templates) :
    table.Serves template where
  agrees := agrees_of_build built present
  knows letter used := by
    obtain ⟨first, foremost⟩ := exists_firstUse? present used
    rw [get?_of_build built, info?, foremost]
    exact ⟨_, rfl⟩

end LetterTable

namespace Program

variable {template : Template} {one other : LetterTable}

theorem fieldSteps_local (served : one.Serves template) (served' : other.Serves template)
    (model : Step) (letter : Char) :
    fieldSteps template one model letter = fieldSteps template other model letter := by
  rw [fieldSteps, fieldSteps]
  cases present : template.runs letter with
  | nil => simp
  | cons run runs =>
    have used : template.uses letter = true := by
      refine (template.uses_iff letter).mpr (List.exists_mem_of_ne_nil _ ?_)
      rw [Ne, ← template.runs_eq_nil_iff, present]
      exact List.cons_ne_nil _ _
    obtain ⟨info, known⟩ := served.knows letter used
    obtain ⟨info', known'⟩ := served'.knows letter used
    obtain ⟨sign, width⟩ := served.agrees letter info known used
    obtain ⟨sign', width'⟩ := served'.agrees letter info' known' used
    simp only [known, known', sign, sign']
    cases signed : isSigned letter with
    | true => rw [width signed, width' signed]
    | false => simp

theorem elementSteps_local (served : one.Serves template) (served' : other.Serves template)
    (slot : Nat) (element : Element) :
    elementSteps template one slot element = elementSteps template other slot element := by
  cases element <;> simp [elementSteps, fieldSteps_local served served']

theorem compile_local (served : one.Serves template) (served' : other.Serves template)
    (signature : String) : compile template one signature = compile template other signature := by
  have operands : operandSteps template one = operandSteps template other := by
    funext element
    rw [operandSteps, operandSteps, elementSteps_local served served']
  simp only [compile, ofElements, operands]

end Program

end OpenRisc
