import OpenRisc.Proofs.LetterTable.Agreement
import OpenRisc.Proofs.Template.Number

set_option autoImplicit false

namespace OpenRisc

section

variable {Value : Type} {find : Char → Option Value}

theorem findSome?_filter_of_none {keep : Char → Bool}
    (dropped : ∀ letter, keep letter = false → find letter = none) (letters : List Char) :
    (letters.filter keep).findSome? find = letters.findSome? find := by
  induction letters with
  | nil => rfl
  | cons letter rest ih =>
    cases kept : keep letter with
    | true => rw [List.filter_cons_of_pos kept, List.findSome?_cons, List.findSome?_cons, ih]
    | false => simp [kept, ih, dropped letter kept]

theorem findSome?_eraseDups (letters : List Char) :
    letters.eraseDups.findSome? find = letters.findSome? find := by
  induction length : letters.length using Nat.strongRecOn generalizing letters with
  | ind length ih =>
    subst length
    cases letters with
    | nil => rfl
    | cons letter rest =>
      rw [List.eraseDups_cons, List.findSome?_cons, List.findSome?_cons]
      cases found : find letter with
      | some value => rfl
      | none =>
        have shorter : (rest.filter fun other => !other == letter).length < (letter :: rest).length :=
          Nat.lt_succ_of_le (List.length_filter_le _ _)
        rw [ih _ shorter _ rfl]
        apply findSome?_filter_of_none
        intro other same
        simp only [Bool.not_eq_eq_eq_not, Bool.not_false, beq_iff_eq] at same
        rw [same, found]

theorem Template.uses_of_bit_eq_operand {template : Template} {letter : Char} {p : Nat}
    (held : template.bit p = .operand letter) : template.uses letter = true :=
  (template.uses_iff letter).mpr
    ⟨p, (template.mem_positions letter p).mpr ⟨template.lt_of_bit_eq_operand held, held⟩⟩

-- The letters of a template are searched from its highest bit down.
theorem Template.leftmost_of_findSome?_letters {template : Template} {value : Value}
    (found : template.letters.findSome? find = some value) :
    ∃ p letter, template.bit p = .operand letter ∧ find letter = some value ∧
      ∀ q other, template.bit q = .operand other → p < q → find other = none := by
  rw [letters, findSome?_eraseDups, ← List.head?_filterMap, List.filterMap_filterMap,
    List.head?_filterMap, List.findSome?_eq_some_iff] at found
  obtain ⟨left, bit, right, split, here, earlier⟩ := found
  have bits : template.bits = right.reverse ++ bit :: left.reverse := by
    rw [← List.reverse_reverse template.bits, split]
    simp
  obtain ⟨letter, named, here⟩ := Option.bind_eq_some_iff.mp here
  have operand : bit = .operand letter := by
    cases bit <;> simp_all [Bit.letter?]
  refine ⟨right.length, letter, ?_, here, ?_⟩
  next => simp [Template.bit, bits, operand]
  next =>
    intro q other held above
    have inside := template.lt_of_bit_eq_operand held
    rw [Template.bit, bits, List.getD_eq_getElem?_getD,
      List.getElem?_append_right (by simp; omega), List.length_reverse,
      show q - right.length = (q - right.length - 1) + 1 by omega, List.getElem?_cons_succ] at held
    cases found : left.reverse[q - right.length - 1]? with
    | none => simp [found] at held
    | some upper =>
      have member := List.mem_reverse.mp (List.mem_of_getElem? found)
      have nothing := earlier upper member
      simp only [found, Option.getD_some] at held
      simpa [held, Bit.letter?] using nothing

end

namespace LetterTable

def Spans (templates : List Template) (letter : Char) (row width : Nat) : Prop :=
  ∃ template, templates[row]? = some template ∧ template.uses letter = true ∧
    template.letterWidth letter = width

structure FirstUse (templates : List Template) (letter : Char) (row width : Nat) : Prop where
  spans : Spans templates letter row width
  least : ∀ other otherWidth, Spans templates letter other otherWidth → row ≤ other

structure Conflicts (templates : List Template) (conflict : WidthConflict) : Prop where
  signed : isSigned conflict.letter = true
  first : FirstUse templates conflict.letter conflict.firstRow conflict.firstWidth
  spans : Spans templates conflict.letter conflict.row conflict.width
  differs : conflict.width ≠ conflict.firstWidth

/-- No row above has a conflict, and no letter that is in conflict stands further to the left in the
row's template. -/
structure FirstConflict (templates : List Template) (conflict : WidthConflict) : Prop extends
    Conflicts templates conflict where
  highest : ∀ other, Conflicts templates other → conflict.row ≤ other.row
  leftmost : ∃ template p, templates[conflict.row]? = some template ∧
    template.bit p = .operand conflict.letter ∧
      ∀ other, Conflicts templates other → other.row = conflict.row →
        ∀ q, template.bit q = .operand other.letter → q ≤ p

section

variable {templates : List Template} {letter : Char}

theorem Spans.width_unique {row width other : Nat} (one : Spans templates letter row width)
    (also : Spans templates letter row other) : width = other := by
  obtain ⟨template, present, _, rfl⟩ := one
  obtain ⟨same, also, _, rfl⟩ := also
  rw [present, Option.some.injEq] at also
  rw [also]

theorem FirstUse.unique {row width otherRow otherWidth : Nat}
    (one : FirstUse templates letter row width)
    (other : FirstUse templates letter otherRow otherWidth) :
    row = otherRow ∧ width = otherWidth := by
  have same : row = otherRow :=
    Nat.le_antisymm (one.least _ _ other.spans) (other.least _ _ one.spans)
  subst same
  exact ⟨rfl, one.spans.width_unique other.spans⟩

theorem firstUse?_eq_some_iff {use : Template × Nat} :
    firstUse? templates letter = some use ↔
      templates[use.2]? = some use.1 ∧ FirstUse templates letter use.2 (use.1.letterWidth letter) := by
  rw [firstUse?, List.find?_eq_some_iff_getElem]
  constructor
  next =>
    rintro ⟨used, row, inside, rfl, earlier⟩
    rw [List.length_zipIdx] at inside
    simp only [List.getElem_zipIdx, Nat.zero_add] at used earlier ⊢
    refine ⟨List.getElem?_eq_getElem inside, ⟨_, List.getElem?_eq_getElem inside, used, rfl⟩, ?_⟩
    rintro other _ ⟨template, present, also, _⟩
    apply Nat.le_of_not_lt
    intro above
    obtain ⟨_, same⟩ := List.getElem?_eq_some_iff.mp present
    have unused := earlier other above
    simp [same, also] at unused
  next =>
    rintro ⟨present, ⟨template, also, used, _⟩, least⟩
    rw [present, Option.some.injEq] at also
    obtain ⟨inside, same⟩ := List.getElem?_eq_some_iff.mp present
    refine ⟨also ▸ used, use.2, by simpa using inside, by simp [same], ?_⟩
    intro other above
    simp only [List.getElem_zipIdx, Nat.zero_add, Bool.not_eq_true', ← Bool.not_eq_true]
    intro also
    have bound := least other _ ⟨_, List.getElem?_eq_getElem (by omega), also, rfl⟩
    omega

theorem info?_eq_some_iff {info : LetterInfo} :
    info? templates letter = some info ↔ info.letter = letter ∧ info.signed = isSigned letter ∧
      FirstUse templates letter info.firstRow info.width := by
  rw [info?, Option.map_eq_some_iff]
  constructor
  next =>
    rintro ⟨use, first, rfl⟩
    exact ⟨rfl, rfl, (firstUse?_eq_some_iff.mp first).2⟩
  next =>
    rintro ⟨rfl, signed, first⟩
    obtain ⟨template, present, _, width⟩ := first.spans
    refine ⟨(template, info.firstRow), firstUse?_eq_some_iff.mpr ⟨present, width ▸ first⟩, ?_⟩
    cases info
    simp_all

theorem conflictAt?_eq_some_iff {use : Template × Nat} (present : templates[use.2]? = some use.1)
    (used : use.1.uses letter = true) {conflict : WidthConflict} :
    conflictAt? templates use letter = some conflict ↔
      Conflicts templates conflict ∧ conflict.row = use.2 ∧ conflict.letter = letter := by
  have here : Spans templates letter use.2 (use.1.letterWidth letter) := ⟨_, present, used, rfl⟩
  simp only [conflictAt?, Option.bind_eq_bind, Option.bind_eq_some_iff, Option.ite_none_right_eq_some,
    Bool.and_eq_true, bne_iff_ne, Option.some.injEq]
  constructor
  next =>
    rintro ⟨⟨first, firstRow⟩, found, ⟨signed, differs⟩, rfl⟩
    exact ⟨⟨signed, (firstUse?_eq_some_iff.mp found).2, here, differs.symm⟩, rfl, rfl⟩
  next =>
    rintro ⟨conflicts, row, rfl⟩
    obtain ⟨template, foremost, _, width⟩ := conflicts.first.spans
    have first : firstUse? templates conflict.letter = some (template, conflict.firstRow) :=
      firstUse?_eq_some_iff.mpr ⟨foremost, width ▸ conflicts.first⟩
    have same := here.width_unique (row ▸ conflicts.spans)
    refine ⟨_, first, ⟨conflicts.signed, ?_⟩, ?_⟩
    next =>
      rw [width, same]
      exact conflicts.differs.symm
    next =>
      cases conflict
      simp_all

theorem firstConflict_of_conflict? {conflict : WidthConflict}
    (found : conflict? templates = some conflict) : FirstConflict templates conflict := by
  rw [conflict?, List.findSome?_eq_some_iff] at found
  obtain ⟨above, use, below, split, here, earlier⟩ := found
  have row (other : Template × Nat) : other ∈ above ++ use :: below ↔
      templates[other.2]? = some other.1 := by
    rw [← split, List.mem_zipIdx_iff_getElem?]
  have present : templates[use.2]? = some use.1 := (row use).mp (by simp)
  have numbered : (above ++ use :: below).Pairwise fun one other => one.2 < other.2 := by
    rw [← split, ← List.pairwise_map, List.zipIdx_map_snd]
    exact List.pairwise_lt_range' 1
  obtain ⟨p, letter, held, found, left⟩ := Template.leftmost_of_findSome?_letters here
  have used := Template.uses_of_bit_eq_operand held
  obtain ⟨conflicts, same, named⟩ := (conflictAt?_eq_some_iff present used).mp found
  refine ⟨conflicts, ?_, use.1, p, same ▸ present, named ▸ held, ?_⟩
  next =>
    intro other also
    obtain ⟨template, there, uses, _⟩ := also.spans
    rcases List.mem_append.mp ((row (template, other.row)).mpr there) with before | after
    next =>
      have nothing := List.findSome?_eq_none_iff.mp (earlier _ before) other.letter
        (Template.mem_letters.mpr uses)
      have clash := (@conflictAt?_eq_some_iff _ _ (template, other.row) there uses _).mpr
        ⟨also, rfl, rfl⟩
      simp [nothing] at clash
    next =>
      rw [same]
      rcases List.mem_cons.mp after with equal | later
      next => exact Nat.le_of_eq (congrArg Prod.snd equal).symm
      next =>
        have ordered := (List.pairwise_cons.mp (List.pairwise_append.mp numbered).2.1).1 _ later
        exact Nat.le_of_lt ordered
  next =>
    intro other also level q there
    apply Nat.le_of_not_lt
    intro above
    have uses := Template.uses_of_bit_eq_operand there
    have clash := (conflictAt?_eq_some_iff present uses).mpr ⟨also, level.trans same, rfl⟩
    simp [left q other.letter there above] at clash

theorem FirstConflict.unique {one other : WidthConflict} (first : FirstConflict templates one)
    (also : FirstConflict templates other) : one = other := by
  have row : one.row = other.row :=
    Nat.le_antisymm (first.highest other also.toConflicts) (also.highest one first.toConflicts)
  obtain ⟨template, p, present, held, left⟩ := first.leftmost
  obtain ⟨same, q, there, also_held, also_left⟩ := also.leftmost
  rw [← row, present, Option.some.injEq] at there
  subst there
  have level : p = q :=
    Nat.le_antisymm (also_left one first.toConflicts row p held)
      (left other also.toConflicts row.symm q also_held)
  rw [level, also_held, Bit.operand.injEq] at held
  have origin := first.first
  have spans := first.spans
  rw [← held] at origin spans
  obtain ⟨firstRow, firstWidth⟩ := origin.unique also.first
  have width := spans.width_unique (row ▸ also.spans)
  cases one
  cases other
  simp_all

theorem Conflicts.not_uniform {conflict : WidthConflict} (conflicts : Conflicts templates conflict) :
    ¬ Uniform templates := by
  intro uniform
  obtain ⟨first, there, used, firstWidth⟩ := conflicts.first.spans
  obtain ⟨template, here, also, width⟩ := conflicts.spans
  have same := uniform conflict.letter conflicts.signed template (List.mem_of_getElem? here) first
    (List.mem_of_getElem? there) also used
  exact conflicts.differs (width.symm.trans (same.trans firstWidth))

theorem conflict?_of_build {conflict : WidthConflict} (failed : build templates = .error conflict) :
    conflict? templates = some conflict := by
  rw [build] at failed
  cases found : conflict? templates with
  | none => simp [found] at failed
  | some other =>
    simp only [found, Except.error.injEq] at failed
    rw [failed]

theorem build_eq_error_iff {conflict : WidthConflict} :
    build templates = .error conflict ↔ FirstConflict templates conflict := by
  constructor
  next => exact fun failed => firstConflict_of_conflict? (conflict?_of_build failed)
  next =>
    intro first
    cases built : build templates with
    | ok table => exact absurd (uniform_of_build built) first.not_uniform
    | error other =>
      rw [first.unique (firstConflict_of_conflict? (conflict?_of_build built))]

end

end LetterTable

end OpenRisc
