import OpenRisc.Proofs.Program.Layout
import OpenRisc.Proofs.Program.Composition

set_option autoImplicit false

namespace OpenRisc.Program

variable {template : Template} {table : LetterTable}

structure Drafted (template : Template) (element : Element) (slot : Nat) (steps : Program) : Prop where
  nonempty : steps ≠ []
  silent : Silent steps
  slots : ∀ step ∈ steps, step.slot = slot
  bases : Each (fun step after => step.isBase = true → ∀ later ∈ after, later.isBase = true) steps
  sign : Each (fun step after => ∀ width, step.signWidth = some width ↔ step.isBase = false ∧
    (∀ later ∈ after, later.isBase = true) ∧ ∃ letter, element.field? false = some letter ∧
      isSigned letter = true ∧ width = template.letterWidth letter) steps
  fields : ∀ isBase, steps.fieldRuns slot isBase = element.runs template isBase

section

variable {model : Step} {letter : Char} {steps : Program}

theorem ReadsField.isBase_eq (reads : ReadsField template model letter steps) {isBase : Bool}
    (place : model.isBase = isBase) : ∀ step ∈ steps, step.isBase = isBase :=
  fun step member => (reads.alike step member).2.trans place

-- The sign stands on the last step of the value, in front of the steps of the base.
theorem ReadsField.sign_value (reads : ReadsField template model letter steps)
    (direct : model.isBase = false) {bases : Program} (based : ∀ step ∈ bases, step.isBase = true) :
    Each (fun step after => ∀ width, step.signWidth = some width ↔ step.isBase = false ∧
      (∀ later ∈ after ++ bases, later.isBase = true) ∧ isSigned letter = true ∧
        width = template.letterWidth letter) steps := by
  apply ((each_of_forall (reads.isBase_eq direct)).and reads.sign).imp
  intro step after facts width
  obtain ⟨⟨here, later⟩, sign⟩ := facts
  have last : (∀ later ∈ after ++ bases, later.isBase = true) ↔ after = [] := by
    constructor
    next =>
      intro all
      cases after with
      | nil => rfl
      | cons next rest =>
        have value := later next List.mem_cons_self
        simp [all next (by simp)] at value
    next =>
      intro none
      simpa [none] using based
  rw [sign width, last]
  simp [here, direct]

theorem ReadsField.fieldRuns_eq (reads : ReadsField template model letter steps) (isBase : Bool) :
    steps.fieldRuns model.slot isBase =
      if isBase = model.isBase then template.runs letter else [] := by
  split
  next same =>
    rw [fieldRuns_of_alike fun step member => same ▸ reads.alike step member, reads.runs]
  next different =>
    apply fieldRuns_of_other
    intro step member both
    exact different (both.2.symm.trans (reads.alike step member).2)

theorem drafted_value (reads : ReadsField template model letter steps) (silent : Silent steps)
    (direct : model.isBase = false) {element : Element} (value : element.field? false = some letter)
    (baseless : element.field? true = none) : Drafted template element model.slot steps where
  nonempty := reads.nonempty
  silent := silent
  slots step member := (reads.alike step member).1
  bases := by
    apply (each_of_forall (reads.isBase_eq direct)).imp
    intro step after same based
    simp [same.1] at based
  sign := by
    have baseless : ∀ step ∈ ([] : Program), step.isBase = true := by simp
    apply (reads.sign_value direct baseless).imp
    intro step after sign
    simpa [value] using sign
  fields isBase := by
    rw [reads.fieldRuns_eq, direct, Element.runs]
    cases isBase <;> simp [value, baseless]

end

-- The base is read after the value, so the last step of the value is known by what follows it.
theorem drafted_displacement {slot : Nat} {value base : Char} {model baseModel : Step}
    {values bases : Program} (reads : ReadsField template model value values)
    (readsBase : ReadsField template baseModel base bases) (silent : Silent (values ++ bases))
    (direct : model.isBase = false) (based : baseModel.isBase = true)
    (here : model.slot = slot) (there : baseModel.slot = slot) :
    Drafted template (.displacement value base) slot (values ++ bases) where
  nonempty := by simp [reads.nonempty]
  silent := silent
  slots := List.forall_mem_append.mpr
    ⟨fun step member => (reads.alike step member).1.trans here,
      fun step member => (readsBase.alike step member).1.trans there⟩
  bases := by
    apply each_append.mpr
    constructor
    next =>
      apply (each_of_forall (reads.isBase_eq direct)).imp
      intro step after same also
      simp [same.1] at also
    next =>
      apply (each_of_forall (readsBase.isBase_eq based)).imp
      exact fun step after same _ => same.2
  sign := by
    have alike := readsBase.isBase_eq based
    apply each_append.mpr
    constructor
    next =>
      apply (reads.sign_value direct alike).imp
      intro step after sign
      simpa [Element.field?] using sign
    next =>
      apply ((each_of_forall alike).and readsBase.sign).imp
      intro step after facts width
      simp [facts.2 width, facts.1.1, based]
  fields isBase := by
    have first := reads.fieldRuns_eq isBase
    have second := readsBase.fieldRuns_eq isBase
    rw [here, direct] at first
    rw [there, based] at second
    rw [fieldRuns_append, first, second, Element.runs]
    cases isBase <;> simp [Element.field?]

theorem drafted_of_elementSteps (agrees : table.Agrees template) {slot : Nat} {element : Element}
    {steps : Program} (done : elementSteps template table slot element = .ok steps) :
    Drafted template element slot steps := by
  cases element with
  | register letter =>
    rw [elementSteps] at done
    have reads := readsField_of_fieldSteps agrees rfl done
    exact drafted_value reads (silent_of_fieldSteps done rfl rfl).2 rfl rfl rfl
  | immediate letter =>
    rw [elementSteps] at done
    have reads := readsField_of_fieldSteps agrees rfl done
    exact drafted_value reads (silent_of_fieldSteps done rfl rfl).2 rfl rfl rfl
  | displacement value base =>
    rw [elementSteps] at done
    obtain ⟨values, first, done⟩ := Traversal.bind_eq_ok_iff.mp done
    obtain ⟨bases, second, done⟩ := Traversal.bind_eq_ok_iff.mp done
    cases done
    have silent : Silent (values ++ bases) := List.forall_mem_append.mpr
      ⟨(silent_of_fieldSteps first rfl rfl).2, (silent_of_fieldSteps second rfl rfl).2⟩
    exact drafted_displacement (readsField_of_fieldSteps agrees rfl first)
      (readsField_of_fieldSteps agrees rfl second) silent rfl rfl rfl rfl
  | synthetic =>
    rw [elementSteps, Except.ok.injEq] at done
    subst done
    refine ⟨by simp, by simp [Silent], by simp, by simp [Each], by simp [Each, Element.field?], ?_⟩
    intro isBase
    cases isBase <;> simp [fieldRuns, Element.runs, Element.field?]

def complete (step : Step) : Step :=
  { step with completesOperand := true }

def terminate (step : Step) : Step :=
  { step with terminal := true }

section

variable {element : Element} {slot : Nat} {steps rest : Program} {operands : List (Element × Nat)}

-- The steps of later operands have other slots and say nothing about this one.
theorem flagged_of_drafted (below : ∀ operand ∈ operands, slot < operand.2)
    (others : ∀ later ∈ rest, slot < later.slot) {step : Step} {after : Program}
    (here : step.slot = slot) (along : ∀ later ∈ after, later.slot = slot)
    (completes : step.completesOperand = true ↔ after = [])
    (bases : step.isBase = true → ∀ later ∈ after, later.isBase = true)
    (sign : ∀ width, step.signWidth = some width ↔ step.isBase = false ∧
      (∀ later ∈ after, later.isBase = true) ∧ ∃ letter, element.field? false = some letter ∧
        isSigned letter = true ∧ width = template.letterWidth letter) :
    step.Flagged template ((element, slot) :: operands) (after ++ rest) := by
  have own (view : Step → Prop) : (∀ later ∈ after ++ rest, later.slot = step.slot → view later) ↔
      ∀ later ∈ after, view later := by
    simp only [List.forall_mem_append, here]
    constructor
    next => exact fun all later member => all.1 later member (along later member)
    next =>
      refine fun all => ⟨fun later member _ => all later member, fun later member same => ?_⟩
      have above := others later member
      omega
  refine ⟨?_, ?_, ?_⟩
  next =>
    rw [completes]
    have none := own fun _ => False
    simp only [imp_false] at none
    rw [none, List.eq_nil_iff_forall_not_mem]
  next =>
    intro based
    exact (own _).mpr (bases based)
  next =>
    intro width
    have only (other : Element) : (other, step.slot) ∈ (element, slot) :: operands ↔
        other = element := by
      rw [here, List.mem_cons, or_iff_left, Prod.mk.injEq, and_iff_left rfl]
      intro member
      exact Nat.lt_irrefl _ (below _ member)
    simp only [sign width, own, only, exists_and_left, exists_eq_left]

theorem flagged_of_later {step : Step} (above : slot < step.slot) {after : Program}
    (flagged : step.Flagged template operands after) :
    step.Flagged template ((element, slot) :: operands) after where
  completes := flagged.completes
  bases := flagged.bases
  sign width := by
    have other (candidate : Element) : (candidate, step.slot) ∈ (element, slot) :: operands ↔
        (candidate, step.slot) ∈ operands := by
      rw [List.mem_cons, or_iff_right]
      intro same
      exact Nat.ne_of_gt above (congrArg Prod.snd same)
    simp only [flagged.sign width, other]

theorem Drafted.mem_slots (drafted : Drafted template element slot steps) {other : Nat} :
    other ∈ steps.map Step.slot ↔ other = slot := by
  obtain ⟨first, member⟩ := List.exists_mem_of_ne_nil steps drafted.nonempty
  constructor
  next =>
    intro found
    obtain ⟨step, present, same⟩ := List.mem_map.mp found
    exact same.symm.trans (drafted.slots step present)
  next =>
    intro same
    exact List.mem_map.mpr ⟨first, member, (drafted.slots first member).trans same.symm⟩

theorem Drafted.flagged_complete (drafted : Drafted template element slot steps)
    (below : ∀ operand ∈ operands, slot < operand.2) (others : ∀ later ∈ rest, slot < later.slot) :
    Each (fun step after => step.Flagged template ((element, slot) :: operands) (after ++ rest))
      (mapLast complete steps) := by
  have incomplete : ∀ step ∈ steps, step.slot = slot ∧ step.completesOperand = false :=
    fun step member => ⟨drafted.slots step member, (drafted.silent step member).1⟩
  have facts := (each_of_forall incomplete).and (drafted.bases.and drafted.sign)
  apply each_mapLast ?_ ?_ facts
  next =>
    intro step after more facts
    obtain ⟨⟨⟨here, unmarked⟩, along⟩, bases, sign⟩ := facts
    have kept (view : Step → Prop) (same : ∀ step, view (complete step) ↔ view step) :
        (∀ later ∈ mapLast complete after, view later) ↔ ∀ later ∈ after, view later :=
      forall_mem_mapLast_iff complete same
    apply flagged_of_drafted below others here
    next => exact (kept _ fun _ => Iff.rfl).mpr fun later member => (along later member).1
    next => simp [unmarked, mapLast_ne_nil _ more]
    next => exact fun based => (kept _ fun _ => Iff.rfl).mpr (bases based)
    next =>
      intro width
      rw [sign width, kept _ fun _ => Iff.rfl]
  next =>
    intro step facts
    obtain ⟨⟨⟨here, _⟩, _⟩, _, sign⟩ := facts
    have last : ∀ later ∈ ([] : Program), later.slot = slot := by simp
    exact flagged_of_drafted below others (show (complete step).slot = slot from here) last
      (by simp [complete]) (by simp) sign

theorem arranged_cons (drafted : Drafted template element slot steps)
    (arranged : Arranged template operands rest)
    (below : ∀ operand ∈ operands, slot < operand.2) :
    Arranged template ((element, slot) :: operands) (mapLast complete steps ++ rest) := by
  have slots : (mapLast complete steps).map Step.slot = steps.map Step.slot :=
    map_mapLast complete (fun _ => rfl) steps
  have others : ∀ later ∈ rest, slot < later.slot := by
    intro later member
    obtain ⟨operand, present, same⟩ := List.mem_map.mp
      ((arranged.slots later.slot).mp (List.mem_map_of_mem member))
    exact same ▸ below operand present
  refine ⟨?_, ?_, ?_, ?_⟩
  next =>
    intro other
    rw [List.map_append, slots, List.mem_append, drafted.mem_slots, arranged.slots, List.map_cons,
      List.mem_cons]
  next =>
    rw [List.map_append, slots, List.pairwise_append]
    refine ⟨?_, arranged.ordered, ?_⟩
    next =>
      rw [List.map_eq_replicate_iff.mpr drafted.slots, List.pairwise_replicate]
      exact .inr (Nat.le_refl slot)
    next =>
      simp only [List.forall_mem_map]
      intro step member later also
      rw [drafted.slots step member]
      exact Nat.le_of_lt (others later also)
  next =>
    apply each_append.mpr ⟨drafted.flagged_complete below others, ?_⟩
    apply ((each_of_forall others).and arranged.flagged).imp
    exact fun step after facts => flagged_of_later facts.1.1 facts.2
  next =>
    intro other place member isBase
    rw [fieldRuns_append, fieldRuns_mapLast complete (fun _ => ⟨rfl, rfl, rfl⟩)]
    rcases List.mem_cons.mp member with same | later
    next =>
      cases same
      rw [drafted.fields, fieldRuns_of_other, List.append_nil]
      intro later present same
      have above := others later present
      omega
    next =>
      have above : slot < place := below _ later
      rw [arranged.fields other place later, fieldRuns_of_other, List.nil_append]
      intro step present same
      have own := drafted.slots step present
      omega

theorem drafted_of_operandSteps (agrees : table.Agrees template) {completed : Program}
    (done : operandSteps template table (element, slot) = .ok completed) :
    ∃ steps, Drafted template element slot steps ∧ completed = mapLast complete steps := by
  rw [operandSteps] at done
  obtain ⟨steps, compiled, done⟩ := Traversal.bind_eq_ok_iff.mp done
  cases done
  exact ⟨steps, drafted_of_elementSteps agrees compiled, rfl⟩

theorem arranged_of_mapM (agrees : table.Agrees template)
    (ascending : operands.Pairwise fun one other => one.2 < other.2) {parts : List Program}
    (done : operands.mapM (operandSteps template table) = .ok parts) :
    Arranged template operands parts.flatten := by
  rw [Traversal.mapM_eq_ok_iff] at done
  induction operands generalizing parts with
  | nil =>
    have none : parts = [] := by simpa using done.symm
    subst none
    exact ⟨by simp, by simp, trivial, by simp⟩
  | cons operand rest ih =>
    cases parts with
    | nil => simp at done
    | cons part later =>
      rw [List.map_cons, List.map_cons, List.cons.injEq] at done
      obtain ⟨steps, drafted, rfl⟩ := drafted_of_operandSteps agrees done.1
      obtain ⟨below, ascending⟩ := List.pairwise_cons.mp ascending
      exact arranged_cons drafted (ih ascending done.2) below

theorem onward_of_mapM (agrees : table.Agrees template) {parts : List Program}
    (done : operands.mapM (operandSteps template table) = .ok parts) :
    ∀ step ∈ parts.flatten, step.terminal = false := by
  intro step member
  obtain ⟨part, held, inside⟩ := List.mem_flatten.mp member
  obtain ⟨operand, _, built⟩ := Traversal.item_of_mem_mapM done held
  obtain ⟨steps, drafted, rfl⟩ := drafted_of_operandSteps agrees built
  have onward : ∀ step ∈ steps, step.terminal = false :=
    fun step member => (drafted.silent step member).2
  exact (forall_mem_mapLast_iff complete fun _ => Iff.rfl).mpr onward step inside

theorem countP_of_mapM (agrees : table.Agrees template) {parts : List Program}
    (done : operands.mapM (operandSteps template table) = .ok parts) :
    parts.flatten.countP Step.completesOperand = operands.length := by
  have single : ∀ part ∈ parts, part.countP Step.completesOperand = 1 := by
    intro part held
    obtain ⟨operand, _, built⟩ := Traversal.item_of_mem_mapM done held
    obtain ⟨steps, drafted, rfl⟩ := drafted_of_operandSteps agrees built
    obtain ⟨front, last, rfl⟩ := exists_concat drafted.nonempty
    have silent : ∀ step ∈ front, ¬ step.completesOperand = true := by
      intro step member
      simp [(drafted.silent step (List.mem_append_left _ member)).1]
    rw [mapLast_concat, List.countP_append, List.countP_eq_zero.mpr silent]
    simp [complete]
  rw [List.countP_flatten, List.map_eq_replicate_iff.mpr single, List.sum_replicate_nat, Nat.mul_one,
    Traversal.length_of_mapM done]

end

section

variable {operands : List (Element × Nat)} {steps : Program}

theorem arranged_terminate (arranged : Arranged template operands steps) :
    Arranged template operands (mapLast terminate steps) where
  slots := by
    rw [map_mapLast terminate fun _ => rfl]
    exact arranged.slots
  ordered := by
    rw [map_mapLast terminate fun _ => rfl]
    exact arranged.ordered
  flagged := by
    have kept (view : Step → Prop) (same : ∀ step, view (terminate step) ↔ view step)
        (after : Program) : (∀ later ∈ mapLast terminate after, view later) ↔
          ∀ later ∈ after, view later :=
      forall_mem_mapLast_iff _ same
    apply each_mapLast ?_ ?_ arranged.flagged
    next =>
      intro step after _ flagged
      refine ⟨?_, ?_, ?_⟩
      next =>
        rw [kept _ fun _ => Iff.rfl]
        exact flagged.completes
      next =>
        rw [kept _ fun _ => Iff.rfl]
        exact flagged.bases
      next =>
        rw [kept _ fun _ => Iff.rfl]
        exact flagged.sign
    next => exact fun step flagged => ⟨flagged.completes, flagged.bases, flagged.sign⟩
  fields element slot member isBase := by
    rw [fieldRuns_mapLast terminate fun _ => ⟨rfl, rfl, rfl⟩]
    exact arranged.fields element slot member isBase

theorem ends_terminate (onward : ∀ step ∈ steps, step.terminal = false) :
    Each (fun step after => step.terminal = true ↔ after = []) (mapLast terminate steps) := by
  apply each_mapLast ?_ ?_ (each_of_forall onward)
  next =>
    intro step after more same
    simp [same.1, mapLast_ne_nil _ more]
  next => simp [terminate]

end

theorem wellFormed_of_ofElements (agrees : table.Agrees template) {elements : List Element}
    {program : Program} (done : ofElements template table elements = .ok program) :
    WellFormed template elements.zipIdx program := by
  obtain ⟨parts, compiled, rfl⟩ := ofElements_eq_ok done
  have ascending : elements.zipIdx.Pairwise fun one other => one.2 < other.2 := by
    rw [← List.pairwise_map, List.zipIdx_map_snd]
    exact List.pairwise_lt_range' 1
  have arranged := arranged_of_mapM agrees ascending compiled
  exact ⟨arranged_terminate arranged, ends_terminate (onward_of_mapM agrees compiled)⟩

theorem operandCount_of_ofElements (agrees : table.Agrees template) {elements : List Element}
    {program : Program} (done : ofElements template table elements = .ok program) :
    program.operandCount = elements.length := by
  obtain ⟨parts, compiled, rfl⟩ := ofElements_eq_ok done
  have kept (steps : Program) : steps.countP Step.completesOperand =
      (steps.map Step.completesOperand).countP id := by
    rw [List.countP_map]
    rfl
  have marks : (mapLast terminate parts.flatten).map Step.completesOperand =
      parts.flatten.map Step.completesOperand :=
    map_mapLast terminate (fun _ => rfl) _
  have count : (mapLast terminate parts.flatten).countP Step.completesOperand = elements.length := by
    rw [kept, marks, ← kept, countP_of_mapM agrees compiled, List.length_zipIdx]
  exact count

theorem roomy_of_compile (agrees : table.Agrees template) {signature : String} {program : Program}
    (done : compile template table signature = .ok program) (raw : Word) :
    Roomy raw {} program := by
  obtain ⟨elements, _, few, built⟩ := compile_eq_ok done
  have completed : operandCount (executed program) ≤ operandCount program :=
    (executed_sublist program).countP_le
  have count := operandCount_of_ofElements agrees built
  rw [roomy_iff, Nat.zero_add]
  omega

end OpenRisc.Program
