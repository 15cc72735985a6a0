import OpenRisc.Proofs.LetterTable.Agreement
import OpenRisc.Proofs.Program.Extraction
import OpenRisc.Proofs.Template.Value

set_option autoImplicit false

namespace OpenRisc

def Step.over (model : Step) (runs : List Run) : Program :=
  runs.map fun run => { model with run }

theorem Step.mem_over {model : Step} {runs : List Run} {step : Step} :
    step ∈ model.over runs ↔ ∃ run ∈ runs, { model with run } = step :=
  List.mem_map

namespace Program

theorem gather_over {model : Step} (unsigned : model.signWidth = none) {runs : List Run}
    (nonempty : runs ≠ []) (wide : ∀ run ∈ runs, 0 < run.width) (raw : Word) (operand : Operand) :
    gather raw operand (model.over runs) =
      { operand with
        kind := if model.isBase then .displacement
          else if model.isRegister then .register else .immediate
        value := if model.isBase then operand.value
          else runs.foldl (fun number run => number ||| run.fragment raw) operand.value
        base := if model.isBase then
            runs.foldl (fun number run => number ||| run.fragment raw) operand.base
          else operand.base
        isDestination := operand.isDestination || model.isDestination } := by
  induction runs generalizing operand with
  | nil => exact absurd rfl nonempty
  | cons run rest ih =>
    obtain ⟨here, later⟩ := List.forall_mem_cons.mp wide
    have step : ({ model with run } : Step).apply raw operand =
        ({ model with run } : Step).merge raw operand := by
      simp [Step.apply, Step.extend, unsigned]
    rw [Step.over, List.map_cons, gather, List.foldl_cons, ← gather, step]
    cases rest with
    | nil =>
      have positive : run.width ≠ 0 := Nat.ne_of_gt here
      simp [gather, Step.merge, Step.kind, positive]
    | cons next rest =>
      rw [← Step.over, ih (by simp) later]
      cases model.isBase <;> simp [Step.merge]

theorem gather_field {template : Template} {letter : Char} (present : template.runs letter ≠ [])
    {model : Step} (unsigned : model.signWidth = none) (raw : Word) {operand : Operand}
    (fresh : (if model.isBase then operand.base else operand.value) = 0) :
    gather raw operand (model.over (template.runs letter)) =
      { operand with
        kind := if model.isBase then .displacement
          else if model.isRegister then .register else .immediate
        value := if model.isBase then operand.value else template.number raw letter
        base := if model.isBase then template.number raw letter else operand.base
        isDestination := operand.isDestination || model.isDestination } := by
  have wide := (template.chained_runs letter).width_pos
  rw [gather_over unsigned present wide, ← template.read_eq_number raw letter, Template.read]
  cases based : model.isBase <;> simp_all

theorem gather_signed {steps : Program} (nonempty : steps ≠ [])
    (unsigned : ∀ step ∈ steps, step.signWidth = none) (raw : Word) (operand : Operand)
    (width : Nat) :
    gather raw operand (mapLast (fun step => { step with signWidth := some width }) steps) =
      { gather raw operand steps with
        value := Word.signExtend (gather raw operand steps).value width
        signed := true } := by
  obtain ⟨front, last, rfl⟩ := exists_concat nonempty
  have silent : last.signWidth = none := unsigned last (by simp)
  rw [mapLast_concat, gather_append, gather_append]
  simp only [gather, List.foldl_cons, List.foldl_nil, Step.apply, Step.extend, silent]
  rfl

section

variable {template : Template} {table : LetterTable} {model : Step} {letter : Char}
  {steps : Program}

theorem fieldSteps_eq_ok (done : fieldSteps template table model letter = .ok steps) :
    ∃ info, table.get? letter = some info ∧ template.runs letter ≠ [] ∧
      steps = if info.signed && !model.isBase then
          mapLast (fun step => { step with signWidth := some info.width })
            (model.over (template.runs letter))
        else model.over (template.runs letter) := by
  rw [fieldSteps] at done
  split at done
  next info run runs found present =>
    refine ⟨info, found, by simp [present], ?_⟩
    rw [present]
    split at done
    next extended =>
      rw [if_pos extended]
      exact (Except.ok.inj done).symm
    next plain =>
      rw [if_neg plain]
      exact (Except.ok.inj done).symm
  next => simp at done

theorem uses_of_fieldSteps (done : fieldSteps template table model letter = .ok steps) :
    template.uses letter = true := by
  obtain ⟨info, _, present, _⟩ := fieldSteps_eq_ok done
  rw [Ne, template.runs_eq_nil_iff] at present
  exact (template.uses_iff letter).mpr (List.exists_mem_of_ne_nil _ present)

theorem silent_of_fieldSteps (done : fieldSteps template table model letter = .ok steps)
    (incomplete : model.completesOperand = false) (onward : model.terminal = false) :
    steps ≠ [] ∧ Silent steps := by
  obtain ⟨info, _, present, rfl⟩ := fieldSteps_eq_ok done
  have nonempty : model.over (template.runs letter) ≠ [] := by simpa [Step.over] using present
  have silent : Silent (model.over (template.runs letter)) := by
    intro step member
    obtain ⟨run, _, rfl⟩ := Step.mem_over.mp member
    exact ⟨incomplete, onward⟩
  split
  next => exact ⟨mapLast_ne_nil _ nonempty, forall_mem_mapLast (by simp) silent⟩
  next => exact ⟨nonempty, silent⟩

theorem gather_values (agrees : table.Agrees template)
    (done : fieldSteps template table model letter = .ok steps) (direct : model.isBase = false)
    (unsigned : model.signWidth = none) (raw : Word) :
    gather raw {} steps =
      { kind := if model.isRegister then .register else .immediate
        value := template.value raw letter
        signed := isSigned letter
        isDestination := model.isDestination } := by
  obtain ⟨info, found, present, rfl⟩ := fieldSteps_eq_ok done
  obtain ⟨signed, width⟩ := agrees letter info found (uses_of_fieldSteps done)
  have nonempty : model.over (template.runs letter) ≠ [] := by simpa [Step.over] using present
  have copies : ∀ step ∈ model.over (template.runs letter), step.signWidth = none := by
    intro step member
    obtain ⟨run, _, rfl⟩ := Step.mem_over.mp member
    exact unsigned
  have gathered := @gather_field template letter present model unsigned raw {} (by simp)
  simp only [direct, Bool.false_eq_true, if_false, Bool.false_or] at gathered
  cases extended : isSigned letter with
  | true =>
    rw [signed, extended, direct, Bool.not_false, Bool.and_true, if_pos rfl,
      gather_signed nonempty copies, gathered, template.value_of_signed raw extended,
      width extended]
  | false =>
    rw [signed, extended, Bool.false_and, if_neg Bool.false_ne_true, gathered, Template.value,
      extended, if_neg Bool.false_ne_true]

theorem gather_bases (done : fieldSteps template table model letter = .ok steps)
    (based : model.isBase = true) (unsigned : model.signWidth = none) (raw : Word)
    {operand : Operand} (fresh : operand.base = 0) :
    gather raw operand steps =
      { operand with
        kind := .displacement
        base := template.number raw letter
        isDestination := operand.isDestination || model.isDestination } := by
  obtain ⟨info, _, present, rfl⟩ := fieldSteps_eq_ok done
  rw [based, Bool.not_true, Bool.and_false, if_neg Bool.false_ne_true,
    gather_field present unsigned raw (by simpa [based] using fresh)]
  simp [based]

end

end Program

end OpenRisc
