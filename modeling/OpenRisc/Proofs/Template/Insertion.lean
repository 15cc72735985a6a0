import Mathlib.Data.List.Induction
import OpenRisc.Proofs.Template.Value

set_option autoImplicit false

namespace OpenRisc

namespace Run

theorem getLsbD_place (run : Run) (value : Word) {p : Nat} (inside : p < 32) :
    (run.place value).getLsbD p =
      (decide (p ∈ run.positions) && value.getLsbD (run.offset + (p - run.start))) := by
  have taken : (value >>> run.offset) &&& Word.lowMask run.width =
      Span.read ⟨run.offset, run.width⟩ value := rfl
  rw [place, taken, BitVec.getLsbD_shiftLeft, Span.getLsbD_read]
  by_cases reached : run.start ≤ p
  · have within : p - run.start < run.width ↔ p < run.start + run.width := by omega
    simp [mem_positions, inside, reached, within, Nat.not_lt.mpr reached]
  · simp [mem_positions, reached, Nat.lt_of_not_le reached]

theorem getLsbD_places_of_not_mem {runs : List Run} {p : Nat}
    (outside : p ∉ runs.flatMap positions) (value raw : Word) :
    (runs.foldl (fun word run => word ||| run.place value) raw).getLsbD p = raw.getLsbD p := by
  induction runs generalizing raw with
  | nil => rfl
  | cons run rest ih =>
    rw [List.flatMap_cons, List.mem_append, not_or] at outside
    rw [List.foldl_cons, ih outside.2, BitVec.getLsbD_or]
    by_cases inside : p < 32
    · simp [getLsbD_place run value inside, outside.1]
    · simp [BitVec.getLsbD_of_ge _ p (Nat.le_of_not_lt inside)]

theorem getLsbD_places {offset : Nat} {runs : List Run} (chained : Chained offset runs)
    (distinct : (runs.flatMap positions).Nodup) {k p : Nat} (inside : p < 32)
    (present : (runs.flatMap positions)[k]? = some p) (value raw : Word) :
    (runs.foldl (fun word run => word ||| run.place value) raw).getLsbD p =
      (raw.getLsbD p || value.getLsbD (offset + k)) := by
  induction runs generalizing offset k raw with
  | nil => simp at present
  | cons run rest ih =>
    obtain ⟨rfl, _, later⟩ := chained
    rw [List.flatMap_cons] at distinct present
    obtain ⟨_, unique, apart⟩ := List.nodup_append.mp distinct
    rw [List.foldl_cons]
    by_cases here : k < run.width
    · have first : run.start + k = p := by
        rw [List.getElem?_append_left (by simpa [positions] using here)] at present
        simpa [positions, here] using present
      have member : p ∈ run.positions := mem_positions.mpr (by omega)
      have elsewhere : p ∉ rest.flatMap positions := fun other => apart p member p other rfl
      rw [getLsbD_places_of_not_mem elsewhere, BitVec.getLsbD_or, getLsbD_place run value inside]
      simp [member, show p - run.start = k by omega]
    · have beyond : (rest.flatMap positions)[k - run.width]? = some p := by
        rw [List.getElem?_append_right (by simpa [positions] using here)] at present
        simpa [positions] using present
      have elsewhere : p ∉ run.positions := fun member =>
        apart p member p (List.mem_of_getElem? beyond) rfl
      rw [ih later unique beyond, BitVec.getLsbD_or, getLsbD_place run value inside]
      simp [elsewhere, show run.offset + run.width + (k - run.width) = run.offset + k by omega]

end Run

namespace Template

variable (template : Template) (raw : Word)

theorem getLsbD_insert_of_not_mem {letter : Char} {p : Nat}
    (outside : p ∉ template.positions letter) (value : Word) :
    (template.insert raw letter value).getLsbD p = raw.getLsbD p := by
  rw [insert, Run.getLsbD_places_of_not_mem (by rwa [template.flatMap_runs]), BitVec.getLsbD_and,
    BitVec.getLsbD_not, getLsbD_letterMask]
  by_cases inside : p < 32
  · simp [outside, inside]
  · simp [BitVec.getLsbD_of_ge raw p (Nat.le_of_not_lt inside)]

theorem getLsbD_insert {letter : Char} {k p : Nat}
    (present : (template.positions letter)[k]? = some p) (value : Word) :
    (template.insert raw letter value).getLsbD p = value.getLsbD k := by
  have member := List.mem_of_getElem? present
  have distinct : (template.positions letter).Nodup :=
    (template.sorted_positions letter).imp Nat.ne_of_lt
  rw [insert, Run.getLsbD_places (template.chained_runs letter) (by rwa [template.flatMap_runs])
    ((template.mem_positions letter p).mp member).1 (by rwa [template.flatMap_runs]),
    BitVec.getLsbD_and, BitVec.getLsbD_not, getLsbD_letterMask]
  simp [member]

theorem number_insert (letter : Char) (value : Word) :
    template.number (template.insert raw letter value) letter =
      value &&& Word.lowMask (template.letterWidth letter) := by
  apply BitVec.eq_of_getLsbD_eq
  intro k inside
  rw [getLsbD_number, BitVec.getLsbD_and, Word.getLsbD_lowMask, letterWidth]
  cases present : (template.positions letter)[k]? with
  | none =>
    have beyond := List.getElem?_eq_none_iff.mp present
    simp [Nat.not_lt.mpr beyond]
  | some p =>
    have within := (List.getElem?_eq_some_iff.mp present).1
    simp only [Option.any_some, template.getLsbD_insert raw present, inside, within, decide_true,
      Bool.and_true]

theorem number_insert_of_ne {letter other : Char} (different : other ≠ letter) (value : Word) :
    template.number (template.insert raw letter value) other = template.number raw other := by
  apply BitVec.eq_of_getLsbD_eq
  intro k _
  rw [getLsbD_number, getLsbD_number]
  cases present : (template.positions other)[k]? with
  | none => rfl
  | some p =>
    have held := ((template.mem_positions other p).mp (List.mem_of_getElem? present)).2
    have outside : p ∉ template.positions letter := by
      rw [mem_positions, held]
      rintro ⟨_, same⟩
      exact different (Bit.operand.inj same)
    simp only [Option.any_some, template.getLsbD_insert_of_not_mem raw outside]

def insertAll (inserts : List (Char × Word)) : Word :=
  inserts.foldl (fun word field => template.insert word field.1 field.2) raw

-- The low bits of the last number for the field or, if there is none, what it held before.
def lastNumber (inserts : List (Char × Word)) (letter : Char) : Word :=
  match inserts.reverse.lookup letter with
  | some value => value &&& Word.lowMask (template.letterWidth letter)
  | none => template.number raw letter

theorem number_insertAll (inserts : List (Char × Word)) (letter : Char) :
    template.number (template.insertAll raw inserts) letter =
      template.lastNumber raw inserts letter := by
  induction inserts using List.reverseRecOn with
  | nil => rfl
  | append_singleton earlier last ih =>
    obtain ⟨target, value⟩ := last
    have step : template.insertAll raw (earlier ++ [(target, value)]) =
        template.insert (template.insertAll raw earlier) target value := List.foldl_append
    rw [step]
    by_cases same : letter = target
    · subst same
      simp [number_insert, lastNumber]
    · have later : (earlier ++ [(target, value)]).reverse.lookup letter =
          earlier.reverse.lookup letter := by
        simp [List.lookup_cons, beq_false_of_ne same]
      rw [number_insert_of_ne _ _ same, ih, lastNumber, lastNumber, later]

theorem getLsbD_insertAll_of_not_mem {inserts : List (Char × Word)} {p : Nat}
    (outside : ∀ field ∈ inserts, p ∉ template.positions field.1) :
    (template.insertAll raw inserts).getLsbD p = raw.getLsbD p := by
  induction inserts generalizing raw with
  | nil => rfl
  | cons field rest ih =>
    obtain ⟨here, later⟩ := List.forall_mem_cons.mp outside
    rw [insertAll, List.foldl_cons, ← insertAll, ih _ later,
      template.getLsbD_insert_of_not_mem raw here]

theorem insertAll_and_mask (inserts : List (Char × Word)) :
    template.insertAll raw inserts &&& template.pattern.mask = raw &&& template.pattern.mask := by
  apply BitVec.eq_of_getLsbD_eq
  intro p inside
  rw [BitVec.getLsbD_and, BitVec.getLsbD_and]
  cases fixed : template.pattern.mask.getLsbD p with
  | false => rw [Bool.and_false, Bool.and_false]
  | true =>
    have outside : ∀ field ∈ inserts, p ∉ template.positions field.1 := by
      intro field _ member
      have held := ((template.mem_positions field.1 p).mp member).2
      simp [pattern, inside, held] at fixed
    rw [template.getLsbD_insertAll_of_not_mem raw outside]

end Template

end OpenRisc
