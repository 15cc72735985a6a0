import OpenRisc.Proofs.Program.Operands

set_option autoImplicit false

namespace OpenRisc

/-- Each shift of the step is by at most 31: the one down to the run, the one up to its place in the
number, and the one by the bits that the sign is repeated through. -/
structure Step.InWord (step : Step) : Prop where
  down : step.run.start < 32
  up : step.run.offset < 32
  sign : ∀ width, step.signWidth = some width → 0 < width ∧ width ≤ 32

namespace Program

variable {template : Template} {table : LetterTable} {program : Program}

theorem fieldSteps_inWord (agrees : table.Agrees template) {model : Step}
    (unsigned : model.signWidth = none) {letter : Char} {steps : Program}
    (done : fieldSteps template table model letter = .ok steps) : ∀ step ∈ steps, step.InWord := by
  have used := uses_of_fieldSteps done
  obtain ⟨info, found, _, rfl⟩ := fieldSteps_eq_ok done
  obtain ⟨signed, width⟩ := agrees letter info found used
  have narrow := template.letterWidth_le letter
  have plain : ∀ step ∈ model.over (template.runs letter), step.InWord := by
    intro step member
    obtain ⟨run, held, rfl⟩ := Step.mem_over.mp member
    obtain ⟨nonempty, down, up⟩ := template.run_inside held
    have start : run.start < 32 := by omega
    have offset : run.offset < 32 := by omega
    exact ⟨start, offset, by simp [unsigned]⟩
  split
  next extended =>
    rw [Bool.and_eq_true, signed] at extended
    rw [width extended.1]
    refine forall_mem_mapLast (fun step inside => ⟨inside.down, inside.up, ?_⟩) plain
    rintro _ ⟨⟩
    obtain ⟨p, covered⟩ := (template.uses_iff letter).mp used
    exact ⟨List.length_pos_of_mem covered, narrow⟩
  next => exact plain

theorem elementSteps_inWord (agrees : table.Agrees template) {slot : Nat} {element : Element}
    {steps : Program} (done : elementSteps template table slot element = .ok steps) :
    ∀ step ∈ steps, step.InWord := by
  cases element with
  | register letter => exact fieldSteps_inWord agrees rfl done
  | immediate letter => exact fieldSteps_inWord agrees rfl done
  | displacement value base =>
    rw [elementSteps] at done
    obtain ⟨values, first, done⟩ := Traversal.bind_eq_ok_iff.mp done
    obtain ⟨bases, second, done⟩ := Traversal.bind_eq_ok_iff.mp done
    cases done
    exact List.forall_mem_append.mpr
      ⟨fieldSteps_inWord agrees rfl first, fieldSteps_inWord agrees rfl second⟩
  | synthetic =>
    cases done
    exact List.forall_mem_singleton.mpr ⟨by simp, by simp, by simp⟩

theorem operandSteps_inWord (agrees : table.Agrees template) {element : Element × Nat}
    {steps : Program} (done : operandSteps template table element = .ok steps) :
    ∀ step ∈ steps, step.InWord := by
  rw [operandSteps] at done
  obtain ⟨parts, compiled, done⟩ := Traversal.bind_eq_ok_iff.mp done
  cases done
  exact forall_mem_mapLast (fun step inside => ⟨inside.down, inside.up, inside.sign⟩)
    (elementSteps_inWord agrees compiled)

theorem inWord_of_compile (agrees : table.Agrees template) {signature : String}
    (done : compile template table signature = .ok program) : ∀ step ∈ program, step.InWord := by
  obtain ⟨elements, _, _, done⟩ := compile_eq_ok done
  obtain ⟨operands, compiled, rfl⟩ := ofElements_eq_ok done
  refine forall_mem_mapLast (fun step inside => ⟨inside.down, inside.up, inside.sign⟩) ?_
  intro step member
  obtain ⟨steps, held, inside⟩ := List.mem_flatten.mp member
  obtain ⟨element, _, built⟩ := Traversal.item_of_mem_mapM compiled held
  exact operandSteps_inWord agrees built step inside

end Program

end OpenRisc
