import OpenRisc.Program.Compile

set_option autoImplicit false

namespace OpenRisc.Program

theorem mapLast_concat (change : Step → Step) (steps : Program) (last : Step) :
    mapLast change (steps ++ [last]) = steps ++ [change last] := by
  induction steps with
  | nil => rfl
  | cons step rest ih => cases rest <;> simp_all [mapLast]

theorem exists_concat {steps : Program} (nonempty : steps ≠ []) :
    ∃ front last, steps = front ++ [last] :=
  ⟨_, _, (List.dropLast_concat_getLast nonempty).symm⟩

theorem mapLast_ne_nil (change : Step → Step) {steps : Program} (nonempty : steps ≠ []) :
    mapLast change steps ≠ [] := by
  obtain ⟨front, last, rfl⟩ := exists_concat nonempty
  simp [mapLast_concat]

theorem forall_mem_mapLast {holds : Step → Prop} {change : Step → Step}
    (kept : ∀ step, holds step → holds (change step)) {steps : Program}
    (all : ∀ step ∈ steps, holds step) : ∀ step ∈ mapLast change steps, holds step := by
  by_cases nonempty : steps = []
  · simp [nonempty, mapLast]
  · obtain ⟨front, last, rfl⟩ := exists_concat nonempty
    rw [mapLast_concat, List.forall_mem_append, List.forall_mem_singleton]
    exact ⟨fun step member => all step (List.mem_append_left _ member),
      kept last (all last (by simp))⟩

def Silent (steps : Program) : Prop :=
  ∀ step ∈ steps, step.completesOperand = false ∧ step.terminal = false

def gather (raw : Word) (operand : Operand) (steps : Program) : Operand :=
  steps.foldl (fun operand step => step.apply raw operand) operand

theorem gather_append (raw : Word) (operand : Operand) (first second : Program) :
    gather raw operand (first ++ second) = gather raw (gather raw operand first) second :=
  List.foldl_append

theorem extractFrom_append_of_silent {steps : Program} (silent : Silent steps) (raw : Word)
    (state : Extraction) (rest : Program) :
    extractFrom raw state (steps ++ rest) =
      extractFrom raw { state with current := gather raw state.current steps } rest := by
  induction steps generalizing state with
  | nil => rfl
  | cons step steps ih =>
    obtain ⟨⟨incomplete, onward⟩, later⟩ := List.forall_mem_cons.mp silent
    rw [List.cons_append, extractFrom]
    simp only [Step.advance, incomplete, onward, Bool.false_eq_true, if_false]
    exact ih later _

theorem extractFrom_operand {steps : Program} (nonempty : steps ≠ []) (silent : Silent steps)
    (raw : Word) (state : Extraction) (rest : Program) :
    extractFrom raw state
        (mapLast (fun step => { step with completesOperand := true }) steps ++ rest) =
      extractFrom raw { operands := state.operands.push (gather raw state.current steps) } rest := by
  obtain ⟨front, last, rfl⟩ := exists_concat nonempty
  have early : Silent front := fun step member => silent step (List.mem_append_left _ member)
  have onward : last.terminal = false := (silent last (by simp)).2
  rw [mapLast_concat, List.append_assoc, extractFrom_append_of_silent early, gather_append]
  simp only [List.singleton_append, extractFrom, Step.advance, onward, Bool.false_eq_true, if_true,
    if_false]
  rfl

-- Ending the program at its last step changes nothing: there are no further steps.
theorem extractFrom_terminated (steps : Program) (raw : Word) (state : Extraction) :
    extractFrom raw state (mapLast (fun step => { step with terminal := true }) steps) =
      extractFrom raw state steps := by
  induction steps generalizing state with
  | nil => rfl
  | cons step rest ih =>
    cases rest with
    | nil =>
      simp only [mapLast, extractFrom, ite_self]
      rfl
    | cons next rest =>
      rw [mapLast, extractFrom, extractFrom]
      simp only [ih]

end OpenRisc.Program
