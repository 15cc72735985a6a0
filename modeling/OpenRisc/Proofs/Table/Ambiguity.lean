import OpenRisc.Proofs.Automaton.Overlap
import OpenRisc.Proofs.Table.Decoding

set_option autoImplicit false

namespace OpenRisc.Table

def Ambiguous (opcodes : List Opcode) (i j : Nat) : Prop :=
  i < j ∧ ∃ raw, Encodes opcodes raw i ∧ Encodes opcodes raw j

section

variable {opcodes : List Opcode} {templates : List Template}

theorem template_of_parseTemplates (parsed : parseTemplates opcodes = .ok templates) {index : Nat}
    {template : Template} (found : templates[index]? = some template) :
    ∃ opcode, opcodes[index]? = some opcode ∧ Template.parse opcode.template = .ok template := by
  obtain ⟨⟨opcode, row⟩, item, read⟩ := Traversal.item_of_mapM parsed found
  rw [List.getElem?_zipIdx, Option.map_eq_some_iff] at item
  obtain ⟨other, present, same⟩ := item
  cases same
  exact ⟨opcode, present, parseTemplate_eq_ok_iff.mp read⟩

theorem encodes_iff_template (parsed : parseTemplates opcodes = .ok templates) {raw : Word}
    {index : Nat} :
    Encodes opcodes raw index ↔
      ∃ template, templates[index]? = some template ∧ template.pattern.accepts raw = true := by
  simp only [Pattern.accepts_iff]
  constructor
  · rintro ⟨opcode, template, present, read, same⟩
    obtain ⟨other, found, also⟩ := parse_of_parseTemplates parsed present
    rw [read, Except.ok.injEq] at also
    exact ⟨other, found, also ▸ same⟩
  · rintro ⟨template, found, same⟩
    obtain ⟨opcode, present, read⟩ := template_of_parseTemplates parsed found
    exact ⟨opcode, template, present, read, same⟩

theorem overlapping_iff_ambiguous (parsed : parseTemplates opcodes = .ok templates) {i j : Nat} :
    Automaton.Overlapping (templates.map Template.pattern) i j ↔ Ambiguous opcodes i j := by
  have common (left right : Template) := Pattern.overlaps_iff_exists
    left.value_within_mask right.value_within_mask
  simp only [Ambiguous, encodes_iff_template parsed]
  constructor
  · rintro ⟨ordered, left, right, here, there, overlap⟩
    rw [List.getElem?_map, Option.map_eq_some_iff] at here there
    obtain ⟨one, found, rfl⟩ := here
    obtain ⟨other, found', rfl⟩ := there
    obtain ⟨raw, accepted, accepted'⟩ := (common one other).mp overlap
    exact ⟨ordered, raw, ⟨one, found, accepted⟩, other, found', accepted'⟩
  · rintro ⟨ordered, raw, ⟨one, found, accepted⟩, other, found', accepted'⟩
    have overlap := (common one other).mpr ⟨raw, accepted, accepted'⟩
    exact ⟨ordered, one.pattern, other.pattern, by simp [found], by simp [found'], overlap⟩

theorem eq_of_unambiguous (clear : ¬ ∃ i j, Ambiguous opcodes i j) {raw : Word} {i j : Nat}
    (here : Encodes opcodes raw i) (there : Encodes opcodes raw j) : i = j := by
  rcases Nat.lt_trichotomy i j with above | same | below
  · exact absurd ⟨i, j, above, raw, here, there⟩ clear
  · exact same
  · exact absurd ⟨j, i, below, raw, there, here⟩ clear

theorem message_of_ambiguous {i j : Nat} (ambiguous : Ambiguous opcodes i j) :
    ∃ first second, opcodes[i]? = some first ∧ opcodes[j]? = some second ∧
      (TableError.automaton (.overlapping i j)).message opcodes =
        "Opcodes `" ++ first.name ++ "` and `" ++ second.name ++
          "` match overlapping instruction words" := by
  obtain ⟨_, raw, one, other⟩ := ambiguous
  obtain ⟨first, here, _⟩ := encodes_iff_accepts.mp one
  obtain ⟨second, there, _⟩ := encodes_iff_accepts.mp other
  refine ⟨first, second, here, there, ?_⟩
  have text : (TableError.automaton (.overlapping i j)).message opcodes =
      "Opcodes `" ++ (opcodes[i]?.map Opcode.name).getD "" ++ "` and `" ++
        (opcodes[j]?.map Opcode.name).getD "" ++ "` match overlapping instruction words" := rfl
  rw [text, here, there, Option.map_some, Option.map_some, Option.getD_some, Option.getD_some]

/-- A table is refused if some word encodes two of its rows, and the first such pair is named. -/
theorem build_overlapping_iff_ambiguous (parsed : parseTemplates opcodes = .ok templates) :
    let built := Automaton.build (templates.map Template.pattern)
    (∀ i j, built = .error (.overlapping i j) ↔
        Ambiguous opcodes i j ∧ ∀ k l, Ambiguous opcodes k l → i < k ∨ i = k ∧ j ≤ l) ∧
      ((∃ i j, built = .error (.overlapping i j)) ↔ ∃ i j, Ambiguous opcodes i j) ∧
      ((∀ i j, built ≠ .error (.overlapping i j)) →
        ∀ raw i j, Encodes opcodes raw i → Encodes opcodes raw j → i = j) ∧
      (∀ i j, built = .error (.overlapping i j) →
        ∃ first second, opcodes[i]? = some first ∧ opcodes[j]? = some second ∧
          (TableError.automaton (.overlapping i j)).message opcodes =
            "Opcodes `" ++ first.name ++ "` and `" ++ second.name ++
              "` match overlapping instruction words") ∧
      ∀ left right : Pattern, left.value &&& left.mask = left.value →
        right.value &&& right.mask = right.value →
        (left.overlaps right = true ↔
          ∃ raw, left.accepts raw = true ∧ right.accepts raw = true) := by
  intro built
  have exact_pair (i j : Nat) : built = .error (.overlapping i j) ↔
      Ambiguous opcodes i j ∧ ∀ k l, Ambiguous opcodes k l → i < k ∨ i = k ∧ j ≤ l := by
    simp only [← overlapping_iff_ambiguous parsed]
    rw [Automaton.build_eq_overlapping_iff]
    exact ⟨fun first => ⟨first.overlapping, first.least⟩, fun ⟨overlapping, least⟩ =>
      ⟨overlapping, least⟩⟩
  have refused : (∃ i j, built = .error (.overlapping i j)) ↔ ∃ i j, Ambiguous opcodes i j := by
    constructor
    · rintro ⟨i, j, failed⟩
      exact ⟨i, j, ((exact_pair i j).mp failed).1⟩
    · rintro ⟨i, j, ambiguous⟩
      obtain ⟨k, l, found⟩ :=
        Automaton.exists_firstOverlap? ((overlapping_iff_ambiguous parsed).mpr ambiguous)
      have first := Automaton.firstOverlap_of_found found
      exact ⟨k, l, Automaton.build_eq_overlapping_iff.mpr first⟩
  refine ⟨exact_pair, refused, ?_, ?_, fun _ _ => Pattern.overlaps_iff_exists⟩
  · intro other raw i j
    refine eq_of_unambiguous fun ambiguous => ?_
    obtain ⟨k, l, failed⟩ := refused.mpr ambiguous
    exact other k l failed
  · intro i j failed
    exact message_of_ambiguous ((exact_pair i j).mp failed).1

end

def crossing : List Opcode :=
  [{ name := "apart", signature := "", template := "11-- ---- ---- ---- ---- ---- ---- ----" },
    { name := "first", signature := "", template := "0--- ---- ---- ---- ---- ---- ---- ----" },
    { name := "second", signature := "", template := "-0-- ---- ---- ---- ---- ---- ---- ----" },
    { name := "third", signature := "", template := "00-- ---- ---- ---- ---- ---- ---- ----" }]

theorem build_crossing :
    (∃ templates, parseTemplates crossing = .ok templates ∧
      Automaton.build (templates.map Template.pattern) = .error (.overlapping 1 2) ∧
      (Ambiguous crossing 1 2 ∧ ∀ k l, Ambiguous crossing k l → 1 < k ∨ 1 = k ∧ 2 ≤ l) ∧
      ∃ raw, Pattern.accepts ⟨0x80000000, 0⟩ raw = true ∧
        Pattern.accepts ⟨0x40000000, 0⟩ raw = true) ∧
      ∀ raw i j, Encodes additions raw i → Encodes additions raw j → i = j := by
  constructor
  · obtain ⟨templates, parsed⟩ := Traversal.exists_of_isOk
      (show (parseTemplates crossing).isOk = true by decide +kernel)
    have failed : Automaton.build (templates.map Template.pattern) = .error (.overlapping 1 2) := by
      have built : ((parseTemplates crossing).map fun templates =>
          Automaton.build (templates.map Template.pattern)) = .ok (.error (.overlapping 1 2)) := by
        decide +kernel
      rw [parsed] at built
      exact Except.ok.inj built
    obtain ⟨named, _, _, _, common⟩ := build_overlapping_iff_ambiguous parsed
    have shared := (common ⟨0x80000000, 0⟩ ⟨0x40000000, 0⟩ rfl rfl).mp rfl
    exact ⟨templates, parsed, failed, (named 1 2).mp failed, shared⟩
  · obtain ⟨table, done⟩ := Traversal.exists_of_isOk
      (show (compile additions).isOk = true by decide +kernel)
    obtain ⟨templates, compiled⟩ := compiled_of_compile done
    obtain ⟨_, _, unambiguous, _⟩ := build_overlapping_iff_ambiguous compiled.parsed
    exact unambiguous fun i j => by simp [compiled.built]

end OpenRisc.Table
