import Mathlib.Data.List.Basic
import OpenRisc.Proofs.LetterTable.Conflict
import OpenRisc.Proofs.Traversal

set_option autoImplicit false

namespace OpenRisc.LetterTable

structure Describes (table : LetterTable) (templates : List Template) : Prop where
  sorted : (table.entries.map LetterInfo.letter).Pairwise (· < ·)
  letters : ∀ letter, letter ∈ table.entries.map LetterInfo.letter ↔
    ∃ template ∈ templates, template.uses letter = true
  entries : ∀ info ∈ table.entries, info.signed = isSigned info.letter ∧
    FirstUse templates info.letter info.firstRow info.width
  filed : ∀ letter info, table.get? letter = some info ↔
    info ∈ table.entries ∧ info.letter = letter
  uniform : ∀ info ∈ table.entries, info.signed = true → ∀ template ∈ templates,
    template.uses info.letter = true → template.letterWidth info.letter = info.width

theorem sorted_insertLetter (letter : Char) {letters : List Char}
    (sorted : letters.Pairwise (· < ·)) : (insertLetter letter letters).Pairwise (· < ·) := by
  induction letters with
  | nil => simp [insertLetter]
  | cons head rest ih =>
    obtain ⟨least, later⟩ := List.pairwise_cons.mp sorted
    rw [insertLetter]
    split
    next below =>
      apply List.pairwise_cons.mpr ⟨?_, sorted⟩
      intro other member
      rcases List.mem_cons.mp member with same | above
      next => exact same ▸ below
      next => exact Char.lt_trans below (least other above)
    next notBelow =>
      split
      next => exact sorted
      next different =>
        have above : head < letter := by
          apply Decidable.byContradiction
          intro notAbove
          exact different (Char.le_antisymm (Char.not_lt.mp notAbove) (Char.not_lt.mp notBelow))
        apply List.pairwise_cons.mpr ⟨?_, ih later⟩
        intro other member
        rcases mem_insertLetter.mp member with same | old
        next => exact same ▸ above
        next => exact least other old

theorem sorted_usedLetters (templates : List Template) :
    (usedLetters templates).Pairwise (· < ·) := by
  rw [usedLetters]
  induction templates.flatMap Template.letters with
  | nil => exact List.Pairwise.nil
  | cons letter rest ih => exact sorted_insertLetter letter ih

section

variable {templates : List Template} {table : LetterTable}

theorem mem_entries_of_build (built : build templates = .ok table) {info : LetterInfo} :
    info ∈ table.entries ↔ info? templates info.letter = some info := by
  obtain ⟨_, rfl⟩ := build_eq_ok_iff.mp built
  rw [List.mem_filterMap]
  constructor
  next =>
    intro ⟨letter, _, known⟩
    rw [letter_of_info? known]
    exact known
  next => exact fun known => ⟨info.letter, mem_usedLetters_of_info? known, known⟩

theorem sorted_of_build (built : build templates = .ok table) :
    (table.entries.map LetterInfo.letter).Pairwise (· < ·) := by
  obtain ⟨_, rfl⟩ := build_eq_ok_iff.mp built
  rw [List.pairwise_map]
  apply (sorted_usedLetters templates).filterMap
  intro letter other below info known info' known'
  rwa [letter_of_info? known, letter_of_info? known']

theorem mem_letters_of_build (built : build templates = .ok table) (letter : Char) :
    letter ∈ table.entries.map LetterInfo.letter ↔
      ∃ template ∈ templates, template.uses letter = true := by
  rw [List.mem_map]
  constructor
  next =>
    intro ⟨info, member, same⟩
    have first := (info?_eq_some_iff.mp ((mem_entries_of_build built).mp member)).2.2
    obtain ⟨template, present, used, _⟩ := first.spans
    exact ⟨template, List.mem_of_getElem? present, same ▸ used⟩
  next =>
    intro ⟨template, member, used⟩
    obtain ⟨use, first⟩ := exists_firstUse? member used
    let info : LetterInfo := ⟨letter, isSigned letter, use.1.letterWidth letter, use.2⟩
    have known : info? templates info.letter = some info := by
      rw [info?, first, Option.map_some]
    exact ⟨info, (mem_entries_of_build built).mpr known, rfl⟩

theorem describes_of_build (built : build templates = .ok table) : table.Describes templates where
  sorted := sorted_of_build built
  letters := mem_letters_of_build built
  entries _ member := (info?_eq_some_iff.mp ((mem_entries_of_build built).mp member)).2
  filed letter info := by
    rw [get?_of_build built, mem_entries_of_build built]
    constructor
    next =>
      intro known
      have same := letter_of_info? known
      exact ⟨same ▸ known, same⟩
    next => exact fun ⟨known, same⟩ => same ▸ known
  uniform info member signed template present used := by
    obtain ⟨same, first⟩ := (info?_eq_some_iff.mp ((mem_entries_of_build built).mp member)).2
    obtain ⟨origin, there, also, width⟩ := first.spans
    rw [← width]
    exact uniform_of_build built info.letter (same ▸ signed) template present origin
      (List.mem_of_getElem? there) used also

end

end OpenRisc.LetterTable
