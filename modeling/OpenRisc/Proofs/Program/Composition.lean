import OpenRisc.Proofs.Program.Extraction

set_option autoImplicit false

namespace OpenRisc.Program

def executed : Program → Program
  | [] => []
  | step :: rest => if step.terminal then [step] else step :: executed rest

-- Steps that no completing step follows belong to no block.
def blocksFrom (started : Program) : Program → List Program
  | [] => []
  | step :: rest =>
    if step.completesOperand then (started ++ [step]) :: blocksFrom [] rest
    else blocksFrom (started ++ [step]) rest

def blocks (program : Program) : List Program :=
  blocksFrom [] program

def Closed (program : Program) : Prop :=
  ∀ last, program.getLast? = some last → last.completesOperand = true

theorem gather_concat (raw : Word) (operand : Operand) (steps : Program) (step : Step) :
    gather raw operand (steps ++ [step]) = step.apply raw (gather raw operand steps) :=
  gather_append raw operand steps [step]

theorem extractFrom_eq_blocks (raw : Word) (operands : Operands) (started program : Program) :
    extractFrom raw { operands, current := gather raw {} started } program =
      ((blocksFrom started (executed program)).map (gather raw {})).foldl Operands.push operands := by
  induction program generalizing operands started with
  | nil => rfl
  | cons step rest ih =>
    have onward := ih operands (started ++ [step])
    have afresh := ih (operands.push (gather raw {} (started ++ [step]))) []
    rw [gather_concat] at onward afresh
    rw [extractFrom, executed]
    cases ends : step.terminal <;> cases completes : step.completesOperand
    all_goals
      simp only [Step.advance, blocksFrom, completes, Bool.false_eq_true, if_true, if_false]
    · exact onward
    · rw [List.map_cons, List.foldl_cons, gather_concat]
      exact afresh
    · rfl
    · rw [List.map_cons, gather_concat]
      rfl

theorem extract_eq_blocks (program : Program) (raw : Word) :
    extract program raw =
      ((blocks (executed program)).map (gather raw {})).take maxOperands := by
  have run := extractFrom_eq_blocks raw {} [] program
  rw [extract, ← List.nil_append (List.map _ _), ← Operands.toList_empty,
    ← Operands.toList_foldl_push]
  exact congrArg Operands.toList run

theorem executed_append {first : Program} (onward : ∀ step ∈ first, step.terminal = false)
    (second : Program) : executed (first ++ second) = first ++ executed second := by
  induction first with
  | nil => rfl
  | cons step rest ih =>
    obtain ⟨here, later⟩ := List.forall_mem_cons.mp onward
    simp [executed, here, ih later]

theorem executed_of_onward {program : Program} (onward : ∀ step ∈ program, step.terminal = false) :
    executed program = program := by
  simpa [executed] using executed_append onward []

theorem executed_sublist (program : Program) : (executed program).Sublist program := by
  induction program with
  | nil => exact List.Sublist.refl []
  | cons step rest ih =>
    rw [executed]
    split
    next => exact (List.nil_sublist rest).cons_cons step
    next => exact ih.cons_cons step

theorem executed_append_terminal {step : Step} (ends : step.terminal = true)
    (front rest : Program) : executed (front ++ step :: rest) = executed (front ++ [step]) := by
  induction front with
  | nil => simp [executed, ends]
  | cons first front ih =>
    rw [List.cons_append, List.cons_append, executed, executed, ih]

theorem blocksFrom_append (started : Program) {first : Program} (nonempty : first ≠ [])
    (closed : Closed first) (second : Program) :
    blocksFrom started (first ++ second) = blocksFrom started first ++ blocks second := by
  induction first generalizing started with
  | nil => contradiction
  | cons step rest ih =>
    cases rest with
    | nil =>
      have completes := closed step rfl
      simp [blocksFrom, blocks, completes]
    | cons next later =>
      have remains : Closed (next :: later) := fun last found => closed last (by simpa using found)
      have step' (started : Program) := ih started (List.cons_ne_nil _ _) remains
      rw [List.cons_append, blocksFrom, blocksFrom]
      split
      next => rw [step', List.cons_append]
      next => exact step' _

theorem blocks_append {first : Program} (closed : Closed first) (second : Program) :
    blocks (first ++ second) = blocks first ++ blocks second := by
  by_cases empty : first = []
  · rw [empty]
    rfl
  · exact blocksFrom_append [] empty closed second

theorem blocksFrom_of_incomplete {rest : Program}
    (incomplete : ∀ step ∈ rest, step.completesOperand = false) (started : Program) :
    blocksFrom started rest = [] := by
  induction rest generalizing started with
  | nil => rfl
  | cons step rest ih =>
    obtain ⟨here, later⟩ := List.forall_mem_cons.mp incomplete
    simpa [blocksFrom, here] using ih later _

theorem blocksFrom_executed_append {rest : Program}
    (incomplete : ∀ step ∈ rest, step.completesOperand = false) (first started : Program) :
    blocksFrom started (executed (first ++ rest)) = blocksFrom started (executed first) := by
  induction first generalizing started with
  | nil =>
    have kept := executed_sublist rest
    exact blocksFrom_of_incomplete (fun step member => incomplete step (kept.subset member)) started
  | cons step first ih =>
    rw [List.cons_append, executed, executed]
    split
    next => rfl
    next => rw [blocksFrom, blocksFrom, ih, ih]

theorem length_blocksFrom (started program : Program) :
    (blocksFrom started program).length = operandCount program := by
  induction program generalizing started with
  | nil => rfl
  | cons step rest ih =>
    cases completes : step.completesOperand <;>
      simp [blocksFrom, operandCount, completes, ih]

theorem extract_of_few {program : Program}
    (few : operandCount (executed program) ≤ maxOperands) (raw : Word) :
    extract program raw = (blocks (executed program)).map (gather raw {}) := by
  rw [extract_eq_blocks, List.take_of_length_le]
  rwa [List.length_map, blocks, length_blocksFrom]

theorem length_extract (program : Program) (raw : Word) :
    (extract program raw).length = min maxOperands (operandCount (executed program)) := by
  rw [extract_eq_blocks, List.length_take, List.length_map, blocks, length_blocksFrom]

theorem operandCount_append (first second : Program) :
    operandCount (first ++ second) = operandCount first + operandCount second :=
  List.countP_append

-- Each operand that is completed finds a free slot.
def Roomy (raw : Word) (state : Extraction) : Program → Prop
  | [] => True
  | step :: rest =>
    (step.completesOperand = true → state.operands.size < maxOperands) ∧
      (step.terminal = false → Roomy raw (step.advance raw state) rest)

theorem operandCount_executed (step : Step) (rest : Program) :
    operandCount (executed (step :: rest)) =
      (if step.completesOperand then 1 else 0) +
        if step.terminal then 0 else operandCount (executed rest) := by
  rw [executed]
  cases step.terminal <;> simp [operandCount, List.countP_cons, Nat.add_comm]

theorem roomy_iff (raw : Word) (state : Extraction) (program : Program) :
    Roomy raw state program ↔
      state.operands.size + operandCount (executed program) ≤ maxOperands := by
  induction program generalizing state with
  | nil => simpa [Roomy, executed, operandCount] using state.operands.bounded
  | cons step rest ih =>
    have bounded := state.operands.bounded
    rw [Roomy, operandCount_executed, ih]
    cases completes : step.completesOperand with
    | false => cases step.terminal <;> simp [Step.advance, completes, bounded]
    | true =>
      by_cases free : state.operands.size < maxOperands
      · have size : (step.advance raw state).operands.size = state.operands.size + 1 := by
          rw [Step.advance, if_pos completes]
          exact Operands.size_push free _
        rw [size]
        cases step.terminal with
        | false =>
          simp only [forall_const, reduceIte, Bool.false_eq_true]
          omega
        | true =>
          simp only [forall_const, reduceIte, reduceCtorEq, false_implies, and_true]
          omega
      · refine iff_of_false (fun roomy => free (roomy.1 rfl)) ?_
        rw [if_pos rfl]
        omega

/-- Operands follow each other as their steps do, as long as there is room for all of them. -/
theorem extract_composes (raw : Word) :
    (∀ first second : Program, (∀ step ∈ first, step.terminal = false) → Closed first →
      operandCount (executed (first ++ second)) ≤ maxOperands →
      extract (first ++ second) raw = extract first raw ++ extract second raw) ∧
    (∀ (front rest : Program) (step : Step), step.terminal = true →
      extract (front ++ step :: rest) raw = extract (front ++ [step]) raw) ∧
    (∀ first rest : Program, (∀ step ∈ rest, step.completesOperand = false) →
      extract (first ++ rest) raw = extract first raw) ∧
    (∀ program : Program, operandCount (executed program) ≤ maxOperands →
      (extract program raw).length = operandCount (executed program)) ∧
    ∀ program : Program,
      (Roomy raw {} program ↔ operandCount (executed program) ≤ maxOperands) ∧
        (extract program raw).length = min maxOperands (operandCount (executed program)) := by
  refine ⟨?_, ?_, ?_, ?_, ?_⟩
  · intro first second onward closed few
    have split := executed_append onward second
    have counts := operandCount_append first (executed second)
    rw [split] at few
    have left : operandCount (executed first) ≤ maxOperands := by
      rw [executed_of_onward onward]
      omega
    have right : operandCount (executed second) ≤ maxOperands := by omega
    rw [extract_of_few (split ▸ few), extract_of_few left, extract_of_few right, split,
      executed_of_onward onward, blocks_append closed, List.map_append]
  · intro front rest step ends
    rw [extract_eq_blocks, extract_eq_blocks, executed_append_terminal ends]
  · intro first rest incomplete
    rw [extract_eq_blocks, extract_eq_blocks, blocks, blocks, blocksFrom_executed_append incomplete]
  · intro program few
    rw [length_extract, Nat.min_eq_right few]
  · intro program
    have room := roomy_iff raw {} program
    rw [Nat.zero_add] at room
    exact ⟨room, length_extract program raw⟩

def offsetSteps : Program :=
  [{ run := ⟨⟨0, 11⟩, 0⟩ }, { run := ⟨⟨21, 5⟩, 11⟩, signWidth := some 16 },
    { run := ⟨⟨16, 5⟩, 0⟩, isRegister := true, isBase := true, completesOperand := true }]

def sourceSteps : Program :=
  [{ run := ⟨⟨11, 5⟩, 0⟩, slot := 1, isRegister := true, completesOperand := true,
     terminal := true }, { slot := 2, completesOperand := true }]

theorem extract_composes_store :
    (∀ step ∈ offsetSteps, step.terminal = false) ∧ Closed offsetSteps ∧
      operandCount (executed (offsetSteps ++ sourceSteps)) ≤ maxOperands ∧
      extract (offsetSteps ++ sourceSteps) 0xD7E14FFC =
        extract offsetSteps 0xD7E14FFC ++ extract sourceSteps 0xD7E14FFC ∧
      (extract (offsetSteps ++ sourceSteps) 0xD7E14FFC).length = 2 := by
  have onward : ∀ step ∈ offsetSteps, step.terminal = false := by decide
  have closed : Closed offsetSteps := by
    intro last found
    cases found
    rfl
  have few : operandCount (executed (offsetSteps ++ sourceSteps)) ≤ maxOperands := by decide
  obtain ⟨append, _, _, count, _⟩ := extract_composes 0xD7E14FFC
  exact ⟨onward, closed, few, append offsetSteps sourceSteps onward closed few, count _ few⟩

end OpenRisc.Program
