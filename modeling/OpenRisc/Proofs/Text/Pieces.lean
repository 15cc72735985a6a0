import OpenRisc.Text.Blank

set_option autoImplicit false

namespace OpenRisc.Text

variable {Item : Type}

theorem flatten_splitOnP (separates : Item → Bool) (text : List Item) :
    (text.splitOnP separates).flatten = text.filter fun c => !separates c := by
  induction text with
  | nil => simp
  | cons c rest ih =>
    rw [List.splitOnP_cons_eq_if_modifyHead]
    by_cases separator : separates c = true
    · simpa [separator] using ih
    · obtain ⟨first, others, pieces⟩ :=
        List.exists_cons_of_ne_nil (List.splitOnP_ne_nil separates rest)
      rw [pieces, List.flatten_cons] at ih
      simp [separator, pieces, ih]

theorem not_separates_of_mem {separates : Item → Bool} {text piece : List Item}
    (member : piece ∈ text.splitOnP separates) {c : Item} (held : c ∈ piece) :
    separates c = false := by
  have kept : c ∈ (text.splitOnP separates).flatten := List.mem_flatten_of_mem member held
  rw [flatten_splitOnP] at kept
  simpa using (List.mem_filter.mp kept).2

-- The first piece takes in whatever stands before the first separator.
theorem exists_splitOnP_append {separates : Item → Bool} {front : List Item}
    (solid : ∀ c ∈ front, separates c = false) (back : List Item) :
    ∃ more rest, (front ++ back).splitOnP separates = (front ++ more) :: rest := by
  induction front with
  | nil => exact List.exists_cons_of_ne_nil (List.splitOnP_ne_nil separates back)
  | cons c front ih =>
    obtain ⟨here, later⟩ := List.forall_mem_cons.mp solid
    obtain ⟨more, rest, pieces⟩ := ih later
    refine ⟨more, rest, ?_⟩
    rw [List.cons_append, List.splitOnP_cons_eq_if_modifyHead, here, pieces]
    rfl

theorem flatten_words (text : List Char) :
    (words text).flatten = text.filter fun c => !isBlank c := by
  rw [words, List.flatten_filter_not_isEmpty, flatten_splitOnP]

theorem words_append_singleton (text : List Char) {blank : Char} (separates : isBlank blank = true) :
    words (text ++ [blank]) = words text := by
  rw [words_append_blank text [] blank separates]
  exact List.append_nil _

theorem words_intercalate {blank : Char} (separates : isBlank blank = true)
    (pieces : List (List Char)) : words ([blank].intercalate pieces) = pieces.flatMap words := by
  induction pieces with
  | nil => rfl
  | cons piece rest ih =>
    cases rest with
    | nil => simp
    | cons other rest =>
      rw [List.intercalate_cons_cons, List.append_assoc, List.singleton_append,
        words_append_blank _ _ _ separates, ih, ← List.flatMap_cons]

theorem flatMap_words_splitOn {blank : Char} (separates : isBlank blank = true) (text : List Char) :
    (text.splitOn blank).flatMap words = words text := by
  rw [← words_intercalate separates, List.intercalate_splitOn]

end OpenRisc.Text
