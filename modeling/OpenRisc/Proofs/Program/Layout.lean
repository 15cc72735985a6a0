import OpenRisc.Proofs.Program.Operands

set_option autoImplicit false

namespace OpenRisc

def Element.field? (isBase : Bool) : Element → Option Char
  | .register letter => if isBase then none else some letter
  | .immediate letter => if isBase then none else some letter
  | .displacement value base => some (if isBase then base else value)
  | .synthetic => none

-- An operand without a field is made by a step that reads no bits.
def Element.runs (template : Template) (isBase : Bool) (element : Element) : List Run :=
  match element.field? isBase with
  | some letter => template.runs letter
  | none => if isBase then [] else [{ start := 0, width := 0, offset := 0 }]

namespace Program

def Each (holds : Step → Program → Prop) : Program → Prop
  | [] => True
  | step :: after => holds step after ∧ Each holds after

def fieldRuns (program : Program) (slot : Nat) (isBase : Bool) : List Run :=
  program.filterMap fun step =>
    if step.slot = slot ∧ step.isBase = isBase then some step.run else none

end Program

/-- The flags of a step in front of the steps `after`, for operands that have their slots written next
to them. -/
structure Step.Flagged (template : Template) (operands : List (Element × Nat)) (step : Step)
    (after : Program) : Prop where
  completes : step.completesOperand = true ↔ ∀ later ∈ after, later.slot ≠ step.slot
  bases : step.isBase = true → ∀ later ∈ after, later.slot = step.slot → later.isBase = true
  sign : ∀ width, step.signWidth = some width ↔ step.isBase = false ∧
    (∀ later ∈ after, later.slot = step.slot → later.isBase = true) ∧
      ∃ element letter, (element, step.slot) ∈ operands ∧ element.field? false = some letter ∧
        isSigned letter = true ∧ width = template.letterWidth letter

namespace Program

structure Arranged (template : Template) (operands : List (Element × Nat)) (program : Program) :
    Prop where
  slots : ∀ slot, slot ∈ program.map Step.slot ↔ slot ∈ operands.map Prod.snd
  ordered : (program.map Step.slot).Pairwise (· ≤ ·)
  flagged : Each (Step.Flagged template operands) program
  fields : ∀ element slot, (element, slot) ∈ operands → ∀ isBase,
    program.fieldRuns slot isBase = element.runs template isBase

/-- A program whose last step, and no other, ends it. -/
structure WellFormed (template : Template) (operands : List (Element × Nat)) (program : Program) :
    Prop extends Arranged template operands program where
  ends : Each (fun step after => step.terminal = true ↔ after = []) program

section

variable {holds held : Step → Program → Prop} {view : Step → Prop} {program : Program}

theorem Each.imp (weaker : ∀ step after, holds step after → held step after)
    (each : Each holds program) : Each held program := by
  induction program with
  | nil => trivial
  | cons step after ih => exact ⟨weaker step after each.1, ih each.2⟩

theorem each_append {first second : Program} : Each holds (first ++ second) ↔
    Each (fun step after => holds step (after ++ second)) first ∧ Each holds second := by
  induction first with
  | nil => simp [Each]
  | cons step after ih => simp [Each, ih, and_assoc]

theorem Each.and (each : Each holds program) (also : Each held program) :
    Each (fun step after => holds step after ∧ held step after) program := by
  induction program with
  | nil => trivial
  | cons step after ih => exact ⟨⟨each.1, also.1⟩, ih each.2 also.2⟩

theorem each_of_forall (all : ∀ step ∈ program, view step) :
    Each (fun step after => view step ∧ ∀ later ∈ after, view later) program := by
  induction program with
  | nil => trivial
  | cons step after ih =>
    obtain ⟨here, later⟩ := List.forall_mem_cons.mp all
    exact ⟨⟨here, later⟩, ih later⟩

theorem each_mapLast {change : Step → Step}
    (inner : ∀ step after, after ≠ [] → holds step after → held step (mapLast change after))
    (last : ∀ step, holds step [] → held (change step) [])
    (each : Each holds program) : Each held (mapLast change program) := by
  induction program with
  | nil => trivial
  | cons step after ih =>
    cases after with
    | nil => exact ⟨last step each.1, trivial⟩
    | cons next rest => exact ⟨inner step (next :: rest) (List.cons_ne_nil _ _) each.1, ih each.2⟩

theorem map_mapLast {Value : Type} {read : Step → Value} (change : Step → Step)
    (same : ∀ step, read (change step) = read step) (program : Program) :
    (mapLast change program).map read = program.map read := by
  induction program with
  | nil => rfl
  | cons step after ih =>
    cases after with
    | nil => simp [mapLast, same]
    | cons next rest => rw [mapLast, List.map_cons, ih, ← List.map_cons]

theorem forall_mem_mapLast_iff (change : Step → Step) (same : ∀ step, view (change step) ↔ view step) :
    (∀ step ∈ mapLast change program, view step) ↔ ∀ step ∈ program, view step := by
  have views := map_mapLast change (fun step => propext (same step)) program
  have kept (steps : Program) : (∀ step ∈ steps, view step) ↔ ∀ fact ∈ steps.map view, fact :=
    (@List.forall_mem_map _ _ view steps id).symm
  rw [kept, kept, views]

end

section

variable {slot : Nat} {isBase : Bool}

theorem fieldRuns_append (first second : Program) :
    fieldRuns (first ++ second) slot isBase =
      fieldRuns first slot isBase ++ fieldRuns second slot isBase :=
  List.filterMap_append

theorem fieldRuns_mapLast (change : Step → Step)
    (same : ∀ step, (change step).slot = step.slot ∧ (change step).isBase = step.isBase ∧
      (change step).run = step.run) (program : Program) :
    fieldRuns (mapLast change program) slot isBase = fieldRuns program slot isBase := by
  let run? (step : Step) : Option Run :=
    if step.slot = slot ∧ step.isBase = isBase then some step.run else none
  have views : (mapLast change program).map run? = program.map run? := by
    apply map_mapLast
    intro step
    simp only [run?, (same step).1, (same step).2.1, (same step).2.2]
  have filtered (steps : Program) : fieldRuns steps slot isBase = (steps.map run?).filterMap id := by
    rw [List.filterMap_map]
    rfl
  rw [filtered, filtered, views]

theorem fieldRuns_of_alike {steps : Program}
    (alike : ∀ step ∈ steps, step.slot = slot ∧ step.isBase = isBase) :
    fieldRuns steps slot isBase = steps.map Step.run := by
  induction steps with
  | nil => rfl
  | cons step rest ih =>
    obtain ⟨here, later⟩ := List.forall_mem_cons.mp alike
    rw [List.map_cons, ← ih later, fieldRuns, List.filterMap_cons, if_pos here, ← fieldRuns]

theorem fieldRuns_of_other {steps : Program}
    (other : ∀ step ∈ steps, ¬ (step.slot = slot ∧ step.isBase = isBase)) :
    fieldRuns steps slot isBase = [] := by
  rw [fieldRuns, List.filterMap_eq_nil_iff]
  intro step member
  rw [if_neg (other step member)]

end

structure ReadsField (template : Template) (model : Step) (letter : Char) (steps : Program) : Prop where
  nonempty : steps ≠ []
  alike : ∀ step ∈ steps, step.slot = model.slot ∧ step.isBase = model.isBase
  runs : steps.map Step.run = template.runs letter
  sign : Each (fun step after => ∀ width, step.signWidth = some width ↔ after = [] ∧
    model.isBase = false ∧ isSigned letter = true ∧ width = template.letterWidth letter) steps

theorem readsField_of_fieldSteps {template : Template} {table : LetterTable}
    (agrees : table.Agrees template) {model : Step} (unsigned : model.signWidth = none)
    {letter : Char} {steps : Program} (done : fieldSteps template table model letter = .ok steps) :
    ReadsField template model letter steps := by
  obtain ⟨info, found, present, rfl⟩ := fieldSteps_eq_ok done
  obtain ⟨signed, width⟩ := agrees letter info found (uses_of_fieldSteps done)
  have nonempty : model.over (template.runs letter) ≠ [] := by simpa [Step.over] using present
  have runs : (model.over (template.runs letter)).map Step.run = template.runs letter := by
    simp [Step.over, Function.comp_def]
  have copies : ∀ step ∈ model.over (template.runs letter),
      (step.slot = model.slot ∧ step.isBase = model.isBase) ∧ step.signWidth = none := by
    intro step member
    obtain ⟨run, _, rfl⟩ := Step.mem_over.mp member
    exact ⟨⟨rfl, rfl⟩, unsigned⟩
  have plain := each_of_forall fun step member => (copies step member).2
  split
  next extended =>
    rw [Bool.and_eq_true, signed, Bool.not_eq_true'] at extended
    refine ⟨mapLast_ne_nil _ nonempty, ?_, ?_, ?_⟩
    next =>
      apply forall_mem_mapLast
      next => exact fun _ same => same
      next => exact fun step member => (copies step member).1
    next =>
      rw [map_mapLast, runs]
      exact fun _ => rfl
    next =>
      apply each_mapLast ?_ ?_ plain
      next =>
        intro step after more copied
        simp [copied.1, mapLast_ne_nil _ more]
      next =>
        intro step _ value
        simp [extended, width extended.1, eq_comm]
  next direct =>
    refine ⟨nonempty, fun step member => (copies step member).1, runs, ?_⟩
    apply plain.imp
    intro step after copied value
    rw [signed] at direct
    simp only [copied.1, reduceCtorEq, false_iff]
    rintro ⟨_, value, also, _⟩
    simp [value, also] at direct

end Program

end OpenRisc
