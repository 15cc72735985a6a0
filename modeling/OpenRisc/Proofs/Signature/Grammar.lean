import OpenRisc.Proofs.Text.Ascii
import OpenRisc.Signature

set_option autoImplicit false

namespace OpenRisc

namespace Element

def Lettered (element : Element) : Prop :=
  ∀ letter ∈ element.letters, letter.isAlpha = true

instance (element : Element) : Decidable element.Lettered :=
  List.decidableBAll (fun letter : Char => letter.isAlpha = true) element.letters

theorem alone_eq_ok_iff {place : Nat} {element other : Element} {rest : List Char} :
    alone place element rest = .ok other ↔ rest = [] ∧ other = element := by
  cases rest <;> simp [alone, eq_comm]

theorem displacementOf_eq_ok_iff {value : Char} {rest : List Char} {element : Element} :
    displacementOf value rest = .ok element ↔
      ∃ base, base.isAlpha = true ∧ rest = ['r', base, ')'] ∧
        element = .displacement value base := by
  constructor
  · intro done
    unfold displacementOf at done
    split at done
    next base rest =>
      split at done
      next alphabetic =>
        split at done
        next rest =>
          obtain ⟨rfl, rfl⟩ := alone_eq_ok_iff.mp done
          exact ⟨base, alphabetic, rfl, rfl⟩
        next => simp at done
      next => simp at done
    next => simp at done
    next => simp at done
  · rintro ⟨base, alphabetic, rfl, rfl⟩
    simp [displacementOf, alphabetic, alone]

theorem print_of_parse {piece : List Char} {element : Element} (done : parse piece = .ok element) :
    piece = element.print ∧ element.Lettered := by
  unfold parse at done
  split at done
  next => simp at done
  next rest =>
    obtain ⟨rfl, rfl⟩ := alone_eq_ok_iff.mp done
    simp [print, Lettered, letters]
  next c rest _ =>
    split at done
    next alphabetic =>
      split at done
      next =>
        cases done
        simp [print, Lettered, letters, alphabetic]
      next rest =>
        obtain ⟨base, also, rfl, rfl⟩ := displacementOf_eq_ok_iff.mp done
        simp [print, Lettered, letters, alphabetic, also]
      next letter rest _ =>
        split at done
        next both =>
          obtain ⟨rfl, rfl⟩ := alone_eq_ok_iff.mp done
          simp [print, Lettered, letters, both]
        next => simp at done
    next => simp at done

theorem parse_print {element : Element} (lettered : element.Lettered) :
    parse element.print = .ok element := by
  cases element with
  | register letter =>
    have alphabetic : letter.isAlpha = true := lettered letter List.mem_cons_self
    have start : 'r'.isAlpha = true := by decide
    have parenthesis : letter ≠ '(' := Text.ne_of_isAlpha alphabetic (by decide)
    simp [print, parse, start, alphabetic, alone]
  | immediate letter =>
    have alphabetic : letter.isAlpha = true := lettered letter List.mem_cons_self
    have digit : letter ≠ '0' := Text.ne_of_isAlpha alphabetic (by decide)
    simp [print, parse, alphabetic]
  | displacement value base =>
    have alphabetic : value.isAlpha = true := lettered value List.mem_cons_self
    have also : base.isAlpha = true := lettered base (by simp [letters])
    have digit : value ≠ '0' := Text.ne_of_isAlpha alphabetic (by decide)
    simp [print, parse, alphabetic, displacementOf, also, alone]
  | synthetic => rfl

theorem parse_eq_ok_iff {piece : List Char} {element : Element} :
    parse piece = .ok element ↔ piece = element.print ∧ element.Lettered := by
  constructor
  · exact print_of_parse
  · rintro ⟨rfl, lettered⟩
    exact parse_print lettered

theorem comma_not_mem_print {element : Element} (lettered : element.Lettered) :
    ',' ∉ element.print := by
  have unlettered : ∀ letter ∈ element.letters, letter ≠ ',' :=
    fun letter member => Text.ne_of_isAlpha (lettered letter member) (by decide)
  cases element <;> simp_all [print, letters, eq_comm]

theorem print_ne_nil (element : Element) : element.print ≠ [] := by
  cases element <;> simp [print]

end Element

namespace Signature

theorem parsePieces_eq_ok_iff {offset : Nat} {pieces : List (List Char)}
    {elements : List Element} :
    parsePieces offset pieces = .ok elements ↔
      pieces = elements.map Element.print ∧ ∀ element ∈ elements, element.Lettered := by
  induction pieces generalizing offset elements with
  | nil => cases elements <;> simp [parsePieces]
  | cons piece rest ih =>
    rw [parsePieces]
    constructor
    · intro done
      split at done
      next => simp at done
      next element read =>
        split at done
        next => simp at done
        next tail later =>
          cases done
          obtain ⟨rfl, lettered⟩ := Element.parse_eq_ok_iff.mp read
          obtain ⟨rfl, all⟩ := ih.mp later
          exact ⟨rfl, List.forall_mem_cons.mpr ⟨lettered, all⟩⟩
    · rintro ⟨printed, lettered⟩
      cases elements with
      | nil => simp at printed
      | cons element tail =>
        rw [List.map_cons, List.cons.injEq] at printed
        obtain ⟨here, all⟩ := List.forall_mem_cons.mp lettered
        have read := Element.parse_eq_ok_iff.mpr ⟨printed.1, here⟩
        have later := (@ih (offset + piece.length + 1) tail).mpr ⟨printed.2, all⟩
        simp only [read, later]

def Spells (signature : String) (elements : List Element) : Prop :=
  (signature = "" ∧ elements = [.synthetic]) ∨
    (elements ≠ [] ∧ (∀ element ∈ elements, element.Lettered) ∧ signature = print elements)

theorem toList_print (elements : List Element) :
    (print elements).toList = [','].intercalate (elements.map Element.print) := by
  rw [print, String.toList_ofList]

theorem splitOnP_print {elements : List Element} (nonempty : elements ≠ [])
    (lettered : ∀ element ∈ elements, element.Lettered) :
    (print elements).toList.splitOnP isComma = elements.map Element.print := by
  have separate : ∀ piece ∈ elements.map Element.print, ',' ∉ piece := by
    intro piece member
    obtain ⟨element, present, rfl⟩ := List.mem_map.mp member
    exact Element.comma_not_mem_print (lettered element present)
  rw [toList_print]
  exact List.splitOn_intercalate ',' separate (by simpa using nonempty)

theorem print_ne_empty {elements : List Element} (nonempty : elements ≠ []) :
    print elements ≠ "" := by
  intro empty
  have characters : [','].intercalate (elements.map Element.print) = [] := by
    rw [← toList_print, empty, String.toList_empty]
  cases elements with
  | nil => exact nonempty rfl
  | cons element rest =>
    have shown := element.print_ne_nil
    cases rest with
    | nil => exact shown (by simpa using characters)
    | cons other rest =>
      rw [List.map_cons, List.map_cons, List.intercalate_cons_cons] at characters
      simp [shown] at characters

theorem parse_eq_ok_iff {signature : String} {elements : List Element} :
    parse signature = .ok elements ↔ Spells signature elements := by
  rw [parse]
  by_cases empty : signature = ""
  next =>
    subst empty
    constructor
    · intro done
      rw [if_pos (by simp), Except.ok.injEq] at done
      exact .inl ⟨rfl, done.symm⟩
    · rintro (⟨_, rfl⟩ | ⟨nonempty, _, printed⟩)
      · rfl
      · exact absurd printed.symm (print_ne_empty nonempty)
  next =>
    rw [if_neg (by simpa using empty), parsePieces_eq_ok_iff]
    constructor
    · rintro ⟨pieces, lettered⟩
      refine .inr ⟨?_, lettered, ?_⟩
      · rintro rfl
        exact List.splitOn_ne_nil ',' signature.toList pieces
      · rw [print, ← pieces]
        exact (String.ofList_toList.symm).trans
          (congrArg String.ofList (List.intercalate_splitOn ',').symm)
    · rintro (⟨same, _⟩ | ⟨nonempty, lettered, rfl⟩)
      · exact absurd same empty
      · exact ⟨splitOnP_print nonempty lettered, lettered⟩

theorem length_splitOnP_isComma (text : List Char) :
    (text.splitOnP isComma).length = text.count ',' + 1 := by
  induction text with
  | nil => rfl
  | cons c rest ih =>
    rw [List.splitOnP_cons_eq_if_modifyHead, List.count_cons, ← isComma]
    cases isComma c <;> simp [ih]

-- The empty signature has one operand as well, although it lists none.
theorem length_of_parse {signature : String} {elements : List Element}
    (read : parse signature = .ok elements) :
    elements.length = signature.toList.count ',' + 1 := by
  rw [parse] at read
  split at read
  next empty =>
    cases read
    simp [String.isEmpty_iff.mp empty]
  next =>
    obtain ⟨pieces, _⟩ := parsePieces_eq_ok_iff.mp read
    rw [← length_splitOnP_isComma, pieces, List.length_map]

/-- Reading is the inverse of printing. The empty signature stands for a synthetic operand. -/
theorem parse_inverts_print :
    (∀ signature : String, signature ≠ "" → ∀ elements : List Element,
      parse signature = .ok elements ↔
        elements ≠ [] ∧ (∀ element ∈ elements, ∀ letter ∈ element.letters, letter.isAlpha = true) ∧
          signature = String.ofList ([','].intercalate (elements.map Element.print))) ∧
      parse "" = .ok [.synthetic] := by
  refine ⟨fun signature nonempty elements => parse_eq_ok_iff.trans ⟨?_, .inr⟩, rfl⟩
  rintro (⟨empty, _⟩ | spelled)
  · exact absurd empty nonempty
  · exact spelled

theorem parse_inverts_print_sigil :
    "r,rr,r(rA),I(rr)" ≠ "" ∧
      parse "r,rr,r(rA),I(rr)" =
        .ok [.immediate 'r', .register 'r', .displacement 'r' 'A', .displacement 'I' 'r'] := by
  have nonempty : "r,rr,r(rA),I(rr)" ≠ "" := by decide
  refine ⟨nonempty, (parse_inverts_print.1 _ nonempty _).mpr ⟨by simp, ?_, rfl⟩⟩
  simp [Element.letters]

end Signature

end OpenRisc
