import Mathlib.Algebra.GroupWithZero.Nat
import Mathlib.Data.List.Pairwise
import OpenRisc.Proofs.Template.Reading
import OpenRisc.Proofs.Traversal

set_option autoImplicit false

namespace OpenRisc

def Word.setBits (word : Word) : List Nat :=
  (List.range 32).filter word.getLsbD

namespace Run

/-- Maximal blocks of the set bits of `mask`, lowest first, that hold the bits of one number. -/
structure Decomposes (mask : Word) (runs : List Run) : Prop where
  nonempty : ∀ run ∈ runs, 0 < run.width
  covers : ∀ p, mask.getLsbD p = true ↔
    ∃ run ∈ runs, run.start ≤ p ∧ p < run.start + run.width
  -- A longer block would take in a bit that is not set.
  ends : ∀ run ∈ runs, mask.getLsbD (run.start + run.width) = false
  ascending : runs.Pairwise fun lower upper => lower.start + lower.width < upper.start
  offsets : ∀ lower run upper, runs = lower ++ run :: upper →
    run.offset = (lower.map fun run => run.width).sum

theorem Decomposes.inside {mask : Word} {runs : List Run} (decomposed : Decomposes mask runs) :
    ∀ run ∈ runs, run.start + run.width ≤ 32 := by
  intro run member
  have nonempty := decomposed.nonempty run member
  have highest := (decomposed.covers (run.start + (run.width - 1))).mpr
    ⟨run, member, by omega, by omega⟩
  have bound := BitVec.lt_of_getLsbD highest
  omega

theorem Chained.offset_eq {offset : Nat} {lower upper : List Run} {run : Run}
    (chained : Chained offset (lower ++ run :: upper)) :
    run.offset = offset + (lower.map fun run => run.width).sum := by
  induction lower generalizing offset with
  | nil => simpa using chained.1
  | cons first rest ih =>
    have later := ih chained.2.2
    simp only [List.map_cons, List.sum_cons]
    omega

end Run

namespace Template

variable (template : Template) (letter : Char)

theorem positions_eq_setBits : template.positions letter = (template.letterMask letter).setBits := by
  rw [positions, Word.setBits]
  apply List.filter_congr
  intro p member
  simp [letterMask, List.mem_range.mp member]

theorem letterMask_covered (p : Nat) : (template.letterMask letter).getLsbD p = true ↔
    ∃ run ∈ template.runs letter, run.start ≤ p ∧ p < run.start + run.width := by
  simp only [getLsbD_letterMask, decide_eq_true_eq, ← template.flatMap_runs, List.mem_flatMap,
    Run.mem_positions]

theorem runs_end {run : Run} (member : run ∈ template.runs letter) :
    (template.letterMask letter).getLsbD (run.start + run.width) = false := by
  -- Two runs are equal or one of them ends below the other.
  have apart : ∀ one ∈ template.runs letter, ∀ other ∈ template.runs letter,
      one = other ∨ one.start + one.width < other.start ∨
        other.start + other.width < one.start := by
    have ascending := template.ascending_runs letter
    apply List.Pairwise.forall_of_forall_of_flip
    next => exact fun one _ => .inl rfl
    next => exact ascending.imp fun below => .inr (.inl below)
    next => exact ascending.imp fun below => .inr (.inr below)
  by_contra covered
  have covered := (template.letterMask_covered letter _).mp (by simpa using covered)
  obtain ⟨other, also, above, below⟩ := covered
  rcases apart run member other also with same | before | after
  next => simp [same] at below
  next => omega
  next => omega

theorem decomposes_runs :
    Run.Decomposes (template.letterMask letter) (template.runs letter) where
  nonempty := (template.chained_runs letter).width_pos
  covers := template.letterMask_covered letter
  ends _ member := template.runs_end letter member
  ascending := template.ascending_runs letter
  offsets lower run upper split := by
    have chained := template.chained_runs letter
    rw [split] at chained
    simpa using chained.offset_eq

theorem sum_width_runs :
    ((template.runs letter).map fun run => run.width).sum = template.letterWidth letter := by
  simp only [letterWidth, ← template.flatMap_runs letter, List.length_flatMap, Run.positions,
    List.length_range']

/-- The runs of a field are the maximal blocks of its mask, lowest first. -/
theorem runs_decompose_letterMask :
    Run.Decomposes (template.letterMask letter) (template.runs letter) ∧
      ((template.runs letter).map fun run => run.width).sum = template.letterWidth letter ∧
      (template.runs letter = [] ↔ template.uses letter = false) ∧
      (∀ raw k, (template.read raw letter).getLsbD k =
        ((template.letterMask letter).setBits[k]?).any raw.getLsbD) ∧
      ∀ text, parse text = .ok template → ∃ reading, Reading.ofText text = .ok reading ∧
        reading.runs letter = template.runs letter := by
  refine ⟨template.decomposes_runs letter, template.sum_width_runs letter, ?_, ?_, ?_⟩
  next =>
    rw [template.runs_eq_nil_iff, ← Bool.not_eq_true, template.uses_iff, not_exists,
      List.eq_nil_iff_forall_not_mem]
  next =>
    intro raw k
    rw [template.read_eq_number, template.getLsbD_number, template.positions_eq_setBits]
  next =>
    intro text parsed
    obtain ⟨reading, read, answers⟩ := Reading.ofText_of_parse parsed
    exact ⟨reading, read, answers.runs letter⟩

-- The offset of a store lies on both sides of its registers.
theorem runs_decompose_splitField :
    ∃ template reading, parse "11 0x5 IIIII AAAAA BBBB BIII IIII IIII" = .ok template ∧
      Reading.ofText "11 0x5 IIIII AAAAA BBBB BIII IIII IIII" = .ok reading ∧
      reading.runs 'I' = template.runs 'I' ∧ template.runs 'I' = [⟨⟨0, 11⟩, 0⟩, ⟨⟨21, 5⟩, 11⟩] := by
  obtain ⟨template, parsed⟩ := Traversal.exists_of_isOk
    (show (parse "11 0x5 IIIII AAAAA BBBB BIII IIII IIII").isOk = true by decide +kernel)
  have runs : (parse "11 0x5 IIIII AAAAA BBBB BIII IIII IIII").map (fun template =>
      template.runs 'I') = .ok [⟨⟨0, 11⟩, 0⟩, ⟨⟨21, 5⟩, 11⟩] := by decide +kernel
  rw [parsed] at runs
  obtain ⟨_, _, _, _, regroup⟩ := template.runs_decompose_letterMask 'I'
  obtain ⟨reading, read, same⟩ := regroup _ parsed
  exact ⟨template, reading, parsed, read, same, Except.ok.inj runs⟩

end Template

end OpenRisc
