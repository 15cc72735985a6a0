import OpenRisc.Proofs.Signature.Starts
import OpenRisc.Proofs.Text.Pieces

set_option autoImplicit false

namespace OpenRisc

namespace Signature

def Accepted (signature : String) : Prop :=
  ∃ elements, parse signature = .ok elements

def lead (elements : List Element) : List Char :=
  elements.flatMap fun element => element.print ++ [',']

theorem intercalate_lead (elements : List Element) (piece : List Char) (rest : List (List Char)) :
    [','].intercalate (elements.map Element.print ++ piece :: rest) =
      lead elements ++ [','].intercalate (piece :: rest) := by
  induction elements with
  | nil => rfl
  | cons element others ih =>
    rw [List.map_cons, List.cons_append, List.intercalate_cons_of_ne_nil (by simp), ih, lead, lead,
      List.flatMap_cons]
    simp only [List.append_assoc]

theorem splitOnP_lead {elements : List Element}
    (lettered : ∀ element ∈ elements, element.Lettered) (text : List Char) :
    (lead elements ++ text).splitOnP isComma =
      elements.map Element.print ++ text.splitOnP isComma := by
  induction elements with
  | nil => rfl
  | cons element others ih =>
    obtain ⟨here, later⟩ := List.forall_mem_cons.mp lettered
    have solid : ∀ c ∈ element.print, isComma c = false := by
      intro c member
      rw [isComma, beq_eq_false_iff_ne]
      rintro rfl
      exact Element.comma_not_mem_print here member
    rw [lead, List.flatMap_cons, List.append_assoc, List.append_assoc, List.singleton_append,
      List.splitOnP_append_cons_of_forall_mem solid ',' rfl, List.map_cons, List.cons_append]
    exact congrArg _ (ih later)

theorem stop_of_parsePieces {offset place : Nat} {pieces : List (List Char)}
    (failed : parsePieces offset pieces = .error place) :
    ∃ elements piece rest inner, (∀ element ∈ elements, element.Lettered) ∧
      pieces = elements.map Element.print ++ piece :: rest ∧
      Element.parse piece = .error inner ∧ place = offset + (lead elements).length + inner := by
  induction pieces generalizing offset with
  | nil => simp [parsePieces] at failed
  | cons piece rest ih =>
    rw [parsePieces] at failed
    split at failed
    next inner stopped =>
      cases failed
      exact ⟨[], piece, rest, inner, by simp, rfl, stopped, rfl⟩
    next element read =>
      split at failed
      next later =>
        cases failed
        obtain ⟨elements, stuck, others, inner, lettered, rfl, stopped, rfl⟩ := ih later
        obtain ⟨rfl, here⟩ := Element.parse_eq_ok_iff.mp read
        refine ⟨element :: elements, stuck, others, inner, List.forall_mem_cons.mpr ⟨here, lettered⟩,
          rfl, stopped, ?_⟩
        simp only [lead, List.flatMap_cons, List.length_append, List.length_singleton]
        omega
      next => simp at failed

theorem accepted_lead {elements : List Element} (lettered : ∀ element ∈ elements, element.Lettered)
    {element : Element} (also : element.Lettered) :
    Accepted (String.ofList (lead elements ++ element.print)) := by
  refine ⟨elements ++ [element], parse_eq_ok_iff.mpr (.inr ⟨by simp, ?_, ?_⟩)⟩
  · simpa [or_imp, forall_and] using ⟨lettered, also⟩
  · rw [print, List.map_append, List.map_singleton, intercalate_lead, List.intercalate_singleton]

theorem print_of_accepted {elements : List Element}
    (lettered : ∀ element ∈ elements, element.Lettered) {text : List Char} (nonempty : text ≠ [])
    (accepted : Accepted (String.ofList (lead elements ++ text))) {piece : List Char}
    (member : piece ∈ text.splitOnP isComma) :
    ∃ element : Element, element.Lettered ∧ piece = element.print := by
  obtain ⟨others, read⟩ := accepted
  have shown : (String.ofList (lead elements ++ text)).isEmpty = false := by
    simp [← String.toList_inj, nonempty]
  rw [parse, shown, if_neg Bool.false_ne_true, parsePieces_eq_ok_iff, String.toList_ofList,
    splitOnP_lead lettered] at read
  have printed : piece ∈ others.map Element.print := by
    rw [← read.1]
    exact List.mem_append_right _ member
  obtain ⟨element, present, rfl⟩ := List.mem_map.mp printed
  exact ⟨element, read.2 element present, rfl⟩

theorem exists_accepted {elements : List Element}
    (lettered : ∀ element ∈ elements, element.Lettered) {part : List Char}
    (starts : Element.Starts part) :
    ∃ more, Accepted (String.ofList (lead elements ++ part) ++ more) := by
  obtain ⟨element, also, more, printed⟩ := starts
  refine ⟨String.ofList more, ?_⟩
  rw [← String.ofList_append, List.append_assoc, printed]
  exact accepted_lead lettered also

-- What follows a piece is its own next character or, behind its last one, the comma.
theorem not_accepted {elements : List Element}
    (lettered : ∀ element ∈ elements, element.Lettered) {piece : List Char}
    (solid : ∀ c ∈ piece, isComma c = false) {inner : Nat}
    (refused : Element.parse piece = .error inner) {next : Char}
    (following : (piece ++ [','])[inner]? = some next) (more : List Char) :
    ¬ Accepted (String.ofList (lead elements ++ (piece.take inner ++ next :: more))) := by
  intro accepted
  have stuck := Element.stuck_of_parse refused
  rcases Nat.lt_or_eq_of_le stuck.inside with within | rfl
  · -- The next character belongs to the piece, so an operand would have to go on with it.
    rw [List.getElem?_append_left within] at following
    have front : ∀ c ∈ piece.take inner ++ [next], isComma c = false := by
      intro c member
      rcases List.mem_append.mp member with early | last
      · exact solid c (List.mem_of_mem_take early)
      · rw [List.mem_singleton.mp last]
        exact solid next (List.mem_of_getElem? following)
    obtain ⟨onward, others, pieces⟩ := Text.exists_splitOnP_append front more
    rw [List.append_assoc, List.singleton_append] at pieces
    obtain ⟨element, also, printed⟩ := print_of_accepted lettered (by simp) accepted
      (pieces ▸ List.mem_cons_self)
    exact stuck.hopeless next following ⟨element, also, onward, printed⟩
  · -- The piece ends here, so it would have to be an operand itself.
    obtain rfl : ',' = next := by simpa using following
    have pieces := List.splitOnP_append_cons_of_forall_mem solid ',' rfl more
    rw [List.take_length] at accepted
    obtain ⟨element, also, rfl⟩ := print_of_accepted lettered (by simp) accepted
      (pieces ▸ List.mem_cons_self)
    rw [Element.parse_print also] at refused
    cases refused

theorem tail_of_intercalate {piece : List Char} {inner : Nat} (inside : inner ≤ piece.length)
    (rest : List (List Char)) :
    ∃ tail, [','].intercalate (piece :: rest) = piece.take inner ++ tail ∧
      (tail = [] ∨ ∃ next others, tail = next :: others ∧ (piece ++ [','])[inner]? = some next) := by
  have whole : ∃ behind, [','].intercalate (piece :: rest) = piece ++ behind ∧
      (behind = [] ∨ ∃ others, behind = ',' :: others) := by
    cases rest with
    | nil => exact ⟨[], by simp, .inl rfl⟩
    | cons other rest =>
      exact ⟨',' :: [','].intercalate (other :: rest),
        by rw [List.intercalate_cons_cons, List.append_assoc, List.singleton_append], .inr ⟨_, rfl⟩⟩
  obtain ⟨behind, text, ends⟩ := whole
  refine ⟨piece.drop inner ++ behind, by rw [text, ← List.append_assoc, List.take_append_drop], ?_⟩
  rcases Nat.lt_or_eq_of_le inside with within | rfl
  · refine .inr ⟨piece[inner], piece.drop (inner + 1) ++ behind, ?_, ?_⟩
    · rw [List.drop_eq_getElem_cons within, List.cons_append]
    · rw [List.getElem?_append_left within, List.getElem?_eq_getElem within]
  · rw [List.drop_length, List.nil_append]
    exact ends.imp_right fun ⟨others, comma⟩ => ⟨',', others, comma, by simp⟩

theorem utf8ByteSize_lead {elements : List Element}
    (lettered : ∀ element ∈ elements, element.Lettered) {part : List Char}
    (starts : Element.Starts part) :
    (String.ofList (lead elements ++ part)).utf8ByteSize =
      (lead elements).length + part.length := by
  rw [← List.length_append]
  apply Text.utf8ByteSize_of_ascii
  intro c member
  rcases List.mem_append.mp member with early | late
  · obtain ⟨element, present, held⟩ := List.mem_flatMap.mp early
    rcases List.mem_append.mp held with own | comma
    · exact Element.utf8Size_of_mem_print (lettered element present) own
    · rw [List.mem_singleton.mp comma]
      rfl
  · obtain ⟨element, also, printed⟩ := starts
    exact Element.utf8Size_of_mem_print also (printed.subset late)

/-- The offset of an error is where a signature becomes hopeless. -/
theorem hopeless_from_offset {signature : String} {offset : Nat}
    (failed : parse signature = .error offset) :
    (⟨offset⟩ : String.Pos.Raw).IsValid signature ∧
      ∃ front back : String, signature = front ++ back ∧ front.utf8ByteSize = offset ∧
        (∃ more, Accepted (front ++ more)) ∧
        (offset = signature.utf8ByteSize ∨ ∃ next rest, back = String.singleton next ++ rest ∧
          ∀ more, ¬ Accepted (front ++ String.singleton next ++ more)) := by
  rw [parse] at failed
  split at failed
  next => simp at failed
  next nonempty =>
    obtain ⟨elements, piece, rest, inner, lettered, pieces, refused, rfl⟩ :=
      stop_of_parsePieces failed
    have stuck := Element.stuck_of_parse refused
    have member : piece ∈ signature.toList.splitOnP isComma := by
      rw [pieces]
      simp
    have solid : ∀ c ∈ piece, isComma c = false := fun _ => Text.not_separates_of_mem member
    obtain ⟨tail, text, following⟩ := tail_of_intercalate stuck.inside rest
    have whole : signature =
        String.ofList (lead elements ++ piece.take inner) ++ String.ofList tail := by
      rw [← String.ofList_append, List.append_assoc, ← text, ← intercalate_lead, ← pieces]
      exact (String.ofList_toList.symm).trans
        (congrArg String.ofList (List.intercalate_splitOn ',').symm)
    have size : (String.ofList (lead elements ++ piece.take inner)).utf8ByteSize =
        0 + (lead elements).length + inner := by
      rw [utf8ByteSize_lead lettered stuck.starts, List.length_take_of_le stuck.inside, Nat.zero_add]
    refine ⟨?_, _, _, whole, size, exists_accepted lettered stuck.starts, ?_⟩
    · exact String.Pos.Raw.isValid_iff_exists_append.mpr
        ⟨_, _, whole, by rw [String.Pos.Raw.ext_iff, String.byteIdx_rawEndPos, size]⟩
    · rcases following with rfl | ⟨next, others, rfl, following⟩
      · left
        rw [whole, String.utf8ByteSize_append, size]
        simp
      · refine .inr ⟨next, String.ofList others, String.ofList_cons, fun more => ?_⟩
        have onward := not_accepted lettered solid refused following more.toList
        rwa [← List.append_assoc, String.ofList_append, String.ofList_cons, String.ofList_toList,
          ← String.append_assoc] at onward

-- The accent is two bytes long and stands where only an `r` could.
theorem hopeless_from_offset_accent :
    parse "rD,I(é" = .error 5 ∧ (⟨5⟩ : String.Pos.Raw).IsValid "rD,I(é" ∧
      ∃ front next rest, "rD,I(é" = front ++ (String.singleton next ++ rest) ∧
        front.utf8ByteSize = 5 ∧ (∃ more, Accepted (front ++ more)) ∧
        ∀ more, ¬ Accepted (front ++ String.singleton next ++ more) := by
  have failed : parse "rD,I(é" = .error 5 := rfl
  obtain ⟨valid, front, back, whole, size, viable, stop⟩ := hopeless_from_offset failed
  rcases stop with ended | ⟨next, rest, rfl, hopeless⟩
  · exact absurd ended (by decide)
  · exact ⟨failed, valid, front, next, rest, whole, size, viable, hopeless⟩

end Signature

end OpenRisc
