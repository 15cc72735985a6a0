import OpenRisc.LetterTable

set_option autoImplicit false

namespace OpenRisc

theorem Template.mem_letters {template : Template} {letter : Char} :
    letter ∈ template.letters ↔ template.uses letter = true := by
  have named (bit : Bit) : bit.letter? = some letter ↔ bit = .operand letter := by
    cases bit <;> simp [Bit.letter?]
  simp [letters, uses, List.mem_eraseDups, List.mem_filterMap, named]

namespace LetterTable

variable {templates : List Template} {table : LetterTable}

theorem build_eq_ok_iff :
    build templates = .ok table ↔
      conflict? templates = none ∧ table = ⟨(usedLetters templates).filterMap (info? templates)⟩ := by
  rw [build]
  cases conflict? templates <;> simp [eq_comm]

theorem use_of_firstUse? {letter : Char} {use : Template × Nat}
    (first : firstUse? templates letter = some use) :
    use.1 ∈ templates ∧ use.1.uses letter = true := by
  rw [firstUse?] at first
  refine ⟨List.fst_mem_of_mem_zipIdx (List.mem_of_find?_eq_some first), ?_⟩
  exact @List.find?_some (Template × Nat) (fun use => use.1.uses letter) use templates.zipIdx first

theorem letter_of_info? {letter : Char} {info : LetterInfo}
    (known : info? templates letter = some info) : info.letter = letter := by
  obtain ⟨use, _, rfl⟩ := Option.map_eq_some_iff.mp known
  rfl

theorem mem_usedLetters_of_info? {letter : Char} {info : LetterInfo}
    (known : info? templates letter = some info) : letter ∈ usedLetters templates := by
  obtain ⟨use, first, _⟩ := Option.map_eq_some_iff.mp known
  obtain ⟨member, used⟩ := use_of_firstUse? first
  exact mem_usedLetters.mpr ⟨use.1, member, Template.mem_letters.mpr used⟩

-- The entries are filed under distinct letters, so a search meets the one it is for.
theorem get?_of_build (built : build templates = .ok table) (letter : Char) :
    table.get? letter = info? templates letter := by
  obtain ⟨_, rfl⟩ := build_eq_ok_iff.mp built
  have filed {other : Char} {info : LetterInfo} (known : info? templates other = some info) :
      info ∈ (usedLetters templates).filterMap (info? templates) :=
    List.mem_filterMap.mpr ⟨other, mem_usedLetters_of_info? known, known⟩
  rw [get?]
  cases found : List.find? _ _ with
  | some info =>
    obtain ⟨other, _, known⟩ := List.mem_filterMap.mp (List.mem_of_find?_eq_some found)
    have same : info.letter = letter := by simpa using List.find?_some found
    rw [letter_of_info? known] at same
    rw [← same, known]
  | none =>
    cases known : info? templates letter with
    | none => rfl
    | some info =>
      have other := List.find?_eq_none.mp found info (filed known)
      simp [letter_of_info? known] at other

def Agrees (table : LetterTable) (template : Template) : Prop :=
  ∀ letter info, table.get? letter = some info → template.uses letter = true →
    info.signed = isSigned letter ∧
      (isSigned letter = true → info.width = template.letterWidth letter)

theorem agrees_of_build (built : build templates = .ok table) {template : Template}
    (present : template ∈ templates) : table.Agrees template := by
  intro letter info found used
  rw [get?_of_build built letter] at found
  obtain ⟨first, foremost, rfl⟩ := Option.map_eq_some_iff.mp found
  refine ⟨rfl, fun signed => ?_⟩
  obtain ⟨row, inside, same⟩ := List.mem_iff_getElem.mp present
  have use : (template, row) ∈ templates.zipIdx := by
    rw [List.mk_mem_zipIdx_iff_getElem?, List.getElem?_eq_getElem inside, same]
  have settled := List.findSome?_eq_none_iff.mp (build_eq_ok_iff.mp built).1 (template, row) use
  have agreed := List.findSome?_eq_none_iff.mp settled letter (Template.mem_letters.mpr used)
  simpa [conflictAt?, foremost, signed] using agreed

theorem exists_firstUse? {template : Template} (present : template ∈ templates) {letter : Char}
    (used : template.uses letter = true) : ∃ first, firstUse? templates letter = some first := by
  obtain ⟨row, inside, same⟩ := List.mem_iff_getElem.mp present
  have use : (template, row) ∈ templates.zipIdx := by
    rw [List.mk_mem_zipIdx_iff_getElem?, List.getElem?_eq_getElem inside, same]
  cases found : firstUse? templates letter with
  | some first => exact ⟨first, rfl⟩
  | none =>
    have unused := List.find?_eq_none.mp found (template, row) use
    simp [used] at unused

def Uniform (templates : List Template) : Prop :=
  ∀ letter, isSigned letter = true → ∀ one ∈ templates, ∀ other ∈ templates,
    one.uses letter = true → other.uses letter = true →
      one.letterWidth letter = other.letterWidth letter

theorem Uniform.mono {part : List Template} (uniform : Uniform templates)
    (subset : part ⊆ templates) : Uniform part :=
  fun letter signed one member other also =>
    uniform letter signed one (subset member) other (subset also)

theorem build_of_uniform (uniform : Uniform templates) : ∃ table, build templates = .ok table := by
  refine ⟨_, build_eq_ok_iff.mpr ⟨List.findSome?_eq_none_iff.mpr ?_, rfl⟩⟩
  intro use member
  refine List.findSome?_eq_none_iff.mpr fun letter named => ?_
  have used := Template.mem_letters.mp named
  obtain ⟨first, foremost⟩ := exists_firstUse? (List.fst_mem_of_mem_zipIdx member) used
  obtain ⟨known, also⟩ := use_of_firstUse? foremost
  have same : isSigned letter = true → first.1.letterWidth letter = use.1.letterWidth letter :=
    fun signed => uniform letter signed _ known _ (List.fst_mem_of_mem_zipIdx member) also used
  simpa [conflictAt?, foremost] using same

theorem uniform_of_build (built : build templates = .ok table) : Uniform templates := by
  intro letter signed one member other also used used'
  obtain ⟨first, foremost⟩ := exists_firstUse? member used
  have known : table.get? letter = some ⟨letter, isSigned letter, first.1.letterWidth letter, first.2⟩ := by
    rw [get?_of_build built, info?, foremost, Option.map_some]
  exact ((agrees_of_build built member letter _ known used).2 signed).symm.trans
    ((agrees_of_build built also letter _ known used').2 signed)

end LetterTable

end OpenRisc
