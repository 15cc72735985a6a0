import OpenRisc.Proofs.Program.Locality
import OpenRisc.Proofs.Program.Operands

set_option autoImplicit false

namespace OpenRisc.Program

/-- Why a signature gives no program, each reason ahead of those below it. -/
inductive Refused (template : Template) (signature : String) : ProgramError → Prop where
  | signature {offset : Nat} (unreadable : Signature.parse signature = .error offset) :
      Refused template signature (.signature offset)
  | tooManyOperands {elements : List Element} (read : Signature.parse signature = .ok elements)
      (many : maxOperands < elements.length) : Refused template signature .tooManyOperands
  | unknownField {elements : List Element} {before after : List Char} {letter : Char}
      (read : Signature.parse signature = .ok elements) (few : elements.length ≤ maxOperands)
      (named : elements.flatMap Element.letters = before ++ letter :: after)
      (known : ∀ other ∈ before, template.uses other = true)
      (absent : template.uses letter = false) : Refused template signature (.unknownField letter)

def Settles {Value : Type} (template : Template) (letters : List Char)
    (result : Except ProgramError Value) : Prop :=
  match letters.find? fun letter => !template.uses letter with
  | none => ∃ value, result = .ok value
  | some letter => result = .error (.unknownField letter)

variable {Value Other : Type} {template : Template} {table : LetterTable}

theorem settles_ok (value : Value) : Settles template [] (.ok value) :=
  ⟨value, rfl⟩

theorem Settles.bind {letters later : List Char} {first : Except ProgramError Value}
    {next : Value → Except ProgramError Other} (settles : Settles template letters first)
    (settles' : ∀ value, Settles template later (next value)) :
    Settles template (letters ++ later) (first >>= next) := by
  unfold Settles at settles ⊢
  rw [List.find?_append]
  cases missing : letters.find? fun letter => !template.uses letter with
  | none =>
    simp only [missing] at settles
    obtain ⟨value, rfl⟩ := settles
    exact settles' value
  | some letter =>
    simp only [missing] at settles
    subst settles
    rfl

theorem settles_fieldSteps (served : table.Serves template) (model : Step) (letter : Char) :
    Settles template [letter] (fieldSteps template table model letter) := by
  rw [Settles]
  cases used : template.uses letter with
  | false =>
    have absent : template.runs letter = [] := by
      rw [template.runs_eq_nil_iff, List.eq_nil_iff_forall_not_mem]
      intro p member
      have also := (template.uses_iff letter).mpr ⟨p, member⟩
      simp [used] at also
    simp [used, fieldSteps, absent]
  | true =>
    obtain ⟨info, known⟩ := served.knows letter used
    obtain ⟨p, member⟩ := (template.uses_iff letter).mp used
    have present : template.runs letter ≠ [] := by
      rw [Ne, template.runs_eq_nil_iff]
      exact List.ne_nil_of_mem member
    obtain ⟨run, runs, split⟩ := List.exists_cons_of_ne_nil present
    simp only [List.find?_cons, used, Bool.not_true, List.find?_nil, fieldSteps, known, split]
    cases info.signed && !model.isBase <;> simp

theorem settles_elementSteps (served : table.Serves template) (slot : Nat) (element : Element) :
    Settles template element.letters (elementSteps template table slot element) := by
  cases element with
  | register letter => exact settles_fieldSteps served _ letter
  | immediate letter => exact settles_fieldSteps served _ letter
  | displacement value base =>
    have values := settles_fieldSteps served { slot } value
    have bases := settles_fieldSteps served { slot, isRegister := true, isBase := true } base
    exact values.bind fun _ => bases.bind fun _ => settles_ok _
  | synthetic => exact settles_ok _

theorem settles_operandSteps (served : table.Serves template) (operand : Element × Nat) :
    Settles template operand.1.letters (operandSteps template table operand) := by
  have settles := (settles_elementSteps served operand.2 operand.1).bind fun steps =>
    settles_ok (mapLast (fun step => { step with completesOperand := true }) steps)
  rwa [List.append_nil] at settles

theorem settles_mapM (served : table.Serves template) (operands : List (Element × Nat)) :
    Settles template (operands.flatMap fun operand => operand.1.letters)
      (operands.mapM (operandSteps template table)) := by
  induction operands with
  | nil => exact settles_ok []
  | cons operand rest ih =>
    rw [List.mapM_cons, List.flatMap_cons]
    apply (settles_operandSteps served operand).bind
    intro steps
    have settles := ih.bind fun parts => settles_ok (steps :: parts)
    rwa [List.append_nil] at settles

theorem settles_ofElements (served : table.Serves template) (elements : List Element) :
    Settles template (elements.flatMap Element.letters) (ofElements template table elements) := by
  have letters : (elements.zipIdx.flatMap fun operand => operand.1.letters) =
      elements.flatMap Element.letters := by
    rw [← List.flatMap_map Prod.fst Element.letters, List.zipIdx_map_fst]
  have settles := (settles_mapM served elements.zipIdx).bind fun parts =>
    settles_ok (mapLast (fun step => { step with terminal := true }) parts.flatten)
  rwa [letters, List.append_nil] at settles

section

variable {signature : String} {failure : ProgramError}

theorem compile_of_refused (served : table.Serves template)
    (refused : Refused template signature failure) :
    compile template table signature = .error failure := by
  rw [compile]
  cases refused with
  | signature unreadable => rw [unreadable]
  | tooManyOperands read many => simp only [read, many, if_true]
  | @unknownField elements before after letter read few named known absent =>
    have missing : ((elements.flatMap Element.letters).find? fun other => !template.uses other) =
        some letter :=
      List.find?_eq_some_iff_append.mpr
        ⟨by simpa using absent, before, after, named, by simpa using known⟩
    have settles := settles_ofElements served elements
    rw [Settles, missing] at settles
    simp only [read, Nat.not_lt.mpr few, if_false]
    exact settles

theorem refused_of_compile (served : table.Serves template)
    (failed : compile template table signature = .error failure) :
    Refused template signature failure := by
  rw [compile] at failed
  cases read : Signature.parse signature with
  | error offset =>
    simp only [read, Except.error.injEq] at failed
    exact failed ▸ .signature read
  | ok elements =>
    simp only [read] at failed
    split at failed
    next many =>
      cases failed
      exact .tooManyOperands read many
    next few =>
      have settles := settles_ofElements served elements
      rw [Settles] at settles
      split at settles
      next =>
        obtain ⟨program, done⟩ := settles
        simp [done] at failed
      next letter missing =>
        rw [settles] at failed
        cases failed
        obtain ⟨absent, before, after, named, known⟩ := List.find?_eq_some_iff_append.mp missing
        exact .unknownField read (Nat.le_of_not_lt few) named (by simpa using known)
          (by simpa using absent)

theorem compile_eq_error_iff (served : table.Serves template) :
    compile template table signature = .error failure ↔ Refused template signature failure :=
  ⟨refused_of_compile served, compile_of_refused served⟩

end

end OpenRisc.Program
