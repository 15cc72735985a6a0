import OpenRisc.Template.Field

set_option autoImplicit false

namespace OpenRisc

namespace Run

def positions (run : Run) : List Nat :=
  List.range' run.start run.width

theorem mem_positions {run : Run} {p : Nat} :
    p ∈ run.positions ↔ run.start ≤ p ∧ p < run.start + run.width := by
  rw [positions, List.mem_range'_1]

def Chained : (offset : Nat) → List Run → Prop
  | _, [] => True
  | offset, run :: rest => run.offset = offset ∧ 0 < run.width ∧ Chained (offset + run.width) rest

theorem Chained.width_pos {offset : Nat} {runs : List Run} (chained : Chained offset runs) :
    ∀ run ∈ runs, 0 < run.width := by
  induction runs generalizing offset with
  | nil => simp
  | cons run rest ih => exact List.forall_mem_cons.mpr ⟨chained.2.1, ih chained.2.2⟩

theorem Chained.offset_add_width_le {offset : Nat} {runs : List Run} (chained : Chained offset runs) :
    ∀ run ∈ runs, run.offset + run.width ≤ offset + (runs.flatMap positions).length := by
  induction runs generalizing offset with
  | nil => simp
  | cons run rest ih =>
    obtain ⟨rfl, _, later⟩ := chained
    rw [List.flatMap_cons, List.length_append, positions, List.length_range']
    refine List.forall_mem_cons.mpr ⟨by omega, fun other member => ?_⟩
    have bound := ih later other member
    omega

theorem chained_group {current : Run} (nonempty : 0 < current.width) (rest : List Nat) :
    Chained current.offset (group current rest) := by
  induction rest generalizing current with
  | nil => exact ⟨rfl, nonempty, trivial⟩
  | cons p rest ih =>
    rw [group]
    split
    next => exact @ih { current with width := current.width + 1 } (Nat.succ_pos _)
    next => exact ⟨rfl, nonempty, @ih ⟨⟨p, 1⟩, current.offset + current.width⟩ Nat.zero_lt_one⟩

theorem flatMap_group (current : Run) (rest : List Nat) :
    (group current rest).flatMap positions = current.positions ++ rest := by
  induction rest generalizing current with
  | nil => simp [group]
  | cons p rest ih =>
    rw [group]
    split
    next adjacent =>
      rw [ih, positions, positions, List.range'_concat, Nat.one_mul, ← adjacent, List.append_assoc]
      rfl
    next => rw [List.flatMap_cons, ih, positions, positions, List.range'_one, List.singleton_append]

theorem start_mem_positions {run : Run} (nonempty : 0 < run.width) : run.start ∈ run.positions :=
  mem_positions.mpr ⟨Nat.le_refl _, by omega⟩

-- A new run is begun after a gap only, and the gap is between it and the run before.
theorem ascending_group {current : Run} (nonempty : 0 < current.width) {rest : List Nat}
    (sorted : (current.positions ++ rest).Pairwise (· < ·)) :
    (group current rest).Pairwise fun lower upper => lower.start + lower.width < upper.start := by
  induction rest generalizing current with
  | nil => simp [group]
  | cons p rest ih =>
    rw [group]
    split
    next adjacent =>
      have longer : ({ current with width := current.width + 1 } : Run).positions =
          current.positions ++ [p] := by
        simp [positions, List.range'_concat, adjacent]
      apply ih (Nat.succ_pos _)
      simpa [longer] using sorted
    next gap =>
      let fresh : Run := ⟨⟨p, 1⟩, current.offset + current.width⟩
      have tail : (fresh.positions ++ rest).Pairwise (· < ·) := (List.pairwise_append.mp sorted).2.1
      have beyond : current.start + current.width < p := by
        have last : current.start + (current.width - 1) ∈ current.positions :=
          mem_positions.mpr (by omega)
        have above := (List.pairwise_append.mp sorted).2.2 _ last p List.mem_cons_self
        omega
      rw [List.pairwise_cons]
      constructor
      next =>
        intro run member
        have wide := (@chained_group fresh Nat.zero_lt_one rest).width_pos run member
        have first : run.start ∈ fresh.positions ++ rest := by
          rw [← flatMap_group]
          exact List.mem_flatMap.mpr ⟨run, member, start_mem_positions wide⟩
        have least := (List.pairwise_cons.mp tail).1 run.start
        rcases List.mem_cons.mp first with same | later
        next => exact same ▸ beyond
        next => exact Nat.lt_trans beyond (least later)
      next => exact ih Nat.zero_lt_one tail

theorem getLsbD_fragment (run : Run) (raw : Word) {k : Nat} (inside : k < 32) :
    (run.fragment raw).getLsbD k = (decide (run.offset ≤ k) &&
      (decide (k < run.offset + run.width) && raw.getLsbD (run.start + (k - run.offset)))) := by
  rw [fragment, BitVec.getLsbD_shiftLeft, Span.getLsbD_read]
  by_cases reached : run.offset ≤ k
  · have within : k - run.offset < run.width ↔ k < run.offset + run.width := by omega
    simp [inside, reached, within, Nat.not_lt.mpr reached]
  · simp [reached, Nat.lt_of_not_le reached]

theorem getLsbD_fragments {offset : Nat} {runs : List Run} (chained : Chained offset runs)
    (raw number : Word) {k : Nat} (inside : k < 32) :
    (runs.foldl (fun number run => number ||| run.fragment raw) number).getLsbD k =
      (number.getLsbD k ||
        (decide (offset ≤ k) && ((runs.flatMap positions)[k - offset]?).any raw.getLsbD)) := by
  induction runs generalizing offset number with
  | nil => simp
  | cons run rest ih =>
    obtain ⟨rfl, nonempty, later⟩ := chained
    rw [List.foldl_cons, ih later, BitVec.getLsbD_or, getLsbD_fragment run raw inside,
      List.flatMap_cons, Bool.or_assoc]
    congr 1
    by_cases reached : run.offset ≤ k
    · by_cases within : k < run.offset + run.width
      · have here : k - run.offset < run.width := by omega
        have below : ¬ run.offset + run.width ≤ k := by omega
        simp [reached, within, below, here, positions, List.getElem?_append_left]
      · have beyond : run.width ≤ k - run.offset := by omega
        have shift : k - run.offset - run.width = k - (run.offset + run.width) := by omega
        simp [reached, within, Nat.le_of_not_lt within, beyond, shift, positions,
          List.getElem?_append_right]
    · have below : ¬ run.offset + run.width ≤ k := by omega
      simp [reached, below]

end Run

namespace Template

/-- The number whose bit `k` is the bit of `raw` at the field's `k`-th lowest position. -/
def number (template : Template) (raw : Word) (letter : Char) : Word :=
  Word.ofBits fun k => ((template.positions letter)[k]?).any raw.getLsbD

theorem letterWidth_le (template : Template) (letter : Char) : template.letterWidth letter ≤ 32 := by
  rw [letterWidth, positions]
  exact Nat.le_trans (List.length_filter_le _ _) (by simp)

theorem getLsbD_number (template : Template) (raw : Word) (letter : Char) (k : Nat) :
    (template.number raw letter).getLsbD k =
      ((template.positions letter)[k]?).any raw.getLsbD := by
  rw [number, Word.getLsbD_ofBits]
  by_cases inside : k < 32
  · simp [inside]
  · have width := template.letterWidth_le letter
    rw [letterWidth] at width
    rw [List.getElem?_eq_none (by omega)]
    simp

theorem chained_runs (template : Template) (letter : Char) :
    Run.Chained 0 (template.runs letter) := by
  rw [runs]
  split
  next => trivial
  next p rest _ => exact @Run.chained_group ⟨⟨p, 1⟩, 0⟩ Nat.zero_lt_one rest

theorem flatMap_runs (template : Template) (letter : Char) :
    (template.runs letter).flatMap Run.positions = template.positions letter := by
  rw [runs]
  split
  next none => simp [none]
  next p rest found =>
    rw [Run.flatMap_group, found, Run.positions, List.range'_one, List.singleton_append]

theorem ascending_runs (template : Template) (letter : Char) :
    (template.runs letter).Pairwise fun lower upper => lower.start + lower.width < upper.start := by
  rw [runs]
  split
  next => exact List.Pairwise.nil
  next p rest found =>
    have sorted := template.sorted_positions letter
    rw [found] at sorted
    exact @Run.ascending_group ⟨⟨p, 1⟩, 0⟩ Nat.zero_lt_one rest sorted

theorem run_inside (template : Template) {letter : Char} {run : Run}
    (member : run ∈ template.runs letter) :
    0 < run.width ∧ run.start + run.width ≤ 32 ∧
      run.offset + run.width ≤ template.letterWidth letter := by
  have chained := template.chained_runs letter
  have nonempty := chained.width_pos run member
  have highest : run.start + (run.width - 1) ∈ template.positions letter := by
    rw [← template.flatMap_runs letter]
    refine List.mem_flatMap.mpr ⟨run, member, List.mem_range'_1.mpr ?_⟩
    omega
  have inside := ((template.mem_positions letter _).mp highest).1
  have bound := chained.offset_add_width_le run member
  rw [flatMap_runs, Nat.zero_add] at bound
  exact ⟨nonempty, by omega, bound⟩

theorem read_eq_number (template : Template) (raw : Word) (letter : Char) :
    template.read raw letter = template.number raw letter := by
  apply BitVec.eq_of_getLsbD_eq
  intro k inside
  rw [read, Run.getLsbD_fragments (template.chained_runs letter) raw 0 inside, flatMap_runs,
    getLsbD_number]
  simp

theorem lt_of_bit_eq_operand {template : Template} {letter : Char} {p : Nat}
    (held : template.bit p = .operand letter) : p < 32 := by
  rcases Nat.lt_or_ge p 32 with inside | outside
  · exact inside
  · rw [bit, List.getD_eq_getElem?_getD, List.getElem?_eq_none (by rwa [template.size])] at held
    cases held

theorem number_eq_iff (template : Template) (letter : Char) (left right : Word) :
    template.number left letter = template.number right letter ↔
      ∀ p, template.bit p = .operand letter → left.getLsbD p = right.getLsbD p := by
  constructor
  · intro same p held
    obtain ⟨k, present⟩ := List.mem_iff_getElem?.mp
      ((template.mem_positions letter p).mpr ⟨lt_of_bit_eq_operand held, held⟩)
    have bit := congrArg (fun number => number.getLsbD k) same
    simpa only [getLsbD_number, present, Option.any_some] using bit
  · intro same
    apply BitVec.eq_of_getLsbD_eq
    intro k _
    rw [getLsbD_number, getLsbD_number]
    cases present : (template.positions letter)[k]? with
    | none => rfl
    | some p =>
      have held := ((template.mem_positions letter p).mp (List.mem_of_getElem? present)).2
      simp only [Option.any_some, same p held]

end Template

end OpenRisc
