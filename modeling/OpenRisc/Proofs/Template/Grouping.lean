import Mathlib.Data.List.SplitBy
import OpenRisc.Proofs.Template.Number
import OpenRisc.Template.Reading

set_option autoImplicit false

namespace OpenRisc

namespace Run

def indexed (run : Run) : List (Nat × Nat) :=
  run.positions.zipIdx run.offset

theorem ahead_of_mem_indexed {run : Run} {place : Nat × Nat} (member : place ∈ run.indexed) :
    place.1 - place.2 = run.start - run.offset := by
  obtain ⟨above, below, same⟩ := List.mem_zipIdx member
  rw [same]
  simp only [positions, List.getElem_range']
  omega

theorem indexed_ne_nil {run : Run} (nonempty : 0 < run.width) : run.indexed ≠ [] := by
  simp [indexed, positions, List.zipIdx_eq_nil_iff, Nat.ne_of_gt nonempty]

theorem flatten_indexed {offset : Nat} {runs : List Run} (chained : Chained offset runs) :
    (runs.map indexed).flatten = (runs.flatMap positions).zipIdx offset := by
  induction runs generalizing offset with
  | nil => rfl
  | cons run rest ih =>
    obtain ⟨rfl, _, later⟩ := chained
    rw [List.map_cons, List.flatten_cons, ih later, List.flatMap_cons, List.zipIdx_append, indexed,
      positions, List.length_range']

theorem Chained.offset_le_start {offset : Nat} {runs : List Run} (chained : Chained offset runs)
    (ascending : runs.Pairwise fun lower upper => lower.start + lower.width < upper.start)
    (below : ∀ run ∈ runs.head?, offset ≤ run.start) : ∀ run ∈ runs, run.offset ≤ run.start := by
  induction runs generalizing offset with
  | nil => simp
  | cons run rest ih =>
    obtain ⟨rfl, _, later⟩ := chained
    obtain ⟨above, ascending⟩ := List.pairwise_cons.mp ascending
    have here : run.offset ≤ run.start := below run rfl
    refine List.forall_mem_cons.mpr ⟨here, ih later ascending fun next first => ?_⟩
    have beyond := above next (List.mem_of_mem_head? first)
    omega

-- The next run begins behind a gap, so it is further ahead of its indices.
theorem separate {lower upper : Run} (wide : 0 < lower.width) (wide' : 0 < upper.width)
    (gap : lower.start + lower.width < upper.start)
    (next : upper.offset = lower.offset + lower.width) (behind : lower.offset ≤ lower.start) :
    ∃ last first, (lower.indexed.getLast last).1 - (lower.indexed.getLast last).2 ≠
      (upper.indexed.head first).1 - (upper.indexed.head first).2 := by
  refine ⟨indexed_ne_nil wide, indexed_ne_nil wide', ?_⟩
  rw [ahead_of_mem_indexed (List.getLast_mem _), ahead_of_mem_indexed (List.head_mem _)]
  omega

theorem isChain_indexed {offset : Nat} {runs : List Run} (chained : Chained offset runs)
    (ascending : runs.Pairwise fun lower upper => lower.start + lower.width < upper.start)
    (behind : ∀ run ∈ runs, run.offset ≤ run.start) :
    (runs.map indexed).IsChain fun block next => ∃ last first,
      ((block.getLast last).1 - (block.getLast last).2 ==
        (next.head first).1 - (next.head first).2) = false := by
  rw [List.isChain_map]
  induction runs generalizing offset with
  | nil => exact .nil
  | cons lower rest ih =>
    cases rest with
    | nil => exact .singleton _
    | cons upper rest =>
      obtain ⟨rfl, wide, next, wide', later⟩ := chained
      obtain ⟨above, ascending⟩ := List.pairwise_cons.mp ascending
      have onward := ih ⟨next, wide', later⟩ ascending fun run member =>
        behind run (List.mem_cons_of_mem _ member)
      refine .cons_cons ?_ onward
      obtain ⟨last, first, apart⟩ := separate wide wide' (above upper List.mem_cons_self) next
        (behind lower List.mem_cons_self)
      exact ⟨last, first, beq_false_of_ne apart⟩

theorem splitBy_positions {offset : Nat} {runs : List Run} (chained : Chained offset runs)
    (ascending : runs.Pairwise fun lower upper => lower.start + lower.width < upper.start)
    (below : ∀ run ∈ runs.head?, offset ≤ run.start) :
    ((runs.flatMap positions).zipIdx offset).splitBy
        (fun one other => one.1 - one.2 == other.1 - other.2) = runs.map indexed := by
  rw [List.splitBy_eq_iff]
  refine ⟨(flatten_indexed chained).symm, ?_, ?_, ?_⟩
  · intro member
    obtain ⟨run, held, empty⟩ := List.mem_map.mp member
    exact indexed_ne_nil (chained.width_pos run held) empty
  · intro block member
    obtain ⟨run, held, rfl⟩ := List.mem_map.mp member
    apply List.Pairwise.isChain
    apply List.pairwise_of_forall_mem_list
    intro one here other there
    rw [ahead_of_mem_indexed here, ahead_of_mem_indexed there, beq_self_eq_true]
  · exact isChain_indexed chained ascending (chained.offset_le_start ascending below)

end Run

namespace Reading

open Run

theorem layRuns_indexed {offset : Nat} {runs : List Run} (chained : Chained offset runs) :
    layRuns offset ((runs.map indexed).map fun block => block.map Prod.fst) = runs := by
  induction runs generalizing offset with
  | nil => rfl
  | cons run rest ih =>
    obtain ⟨rfl, wide, later⟩ := chained
    have block : run.indexed.map Prod.fst = run.positions := List.zipIdx_map_fst _ _
    have first : run.positions.headD 0 = run.start := by
      obtain ⟨width, same⟩ := Nat.exists_eq_succ_of_ne_zero (Nat.ne_of_gt wide)
      rw [Run.positions, same, List.range'_succ]
      rfl
    have length : run.positions.length = run.width := List.length_range'
    rw [List.map_cons, List.map_cons, layRuns, block, first, length, ih later]

end Reading

namespace Template

theorem sort_positions (template : Template) (letter : Char) {positions : List Nat}
    (perm : positions.Perm (template.positions letter)) :
    positions.mergeSort = template.positions letter := by
  have ascending := @List.pairwise_mergeSort Nat (fun p q => decide (p ≤ q))
    (by simpa using fun a b c => Nat.le_trans) (by simpa using Nat.le_total) positions
  refine List.Perm.eq_of_pairwise (fun _ _ _ _ => Nat.le_antisymm) (by simpa using ascending)
    ((template.sorted_positions letter).imp Nat.le_of_lt) ?_
  exact (List.mergeSort_perm _ _).trans perm

-- Sorted positions are cut where they are no longer equally far ahead of their indices.
theorem runs_of_perm (template : Template) (letter : Char) {reading : Reading}
    (perm : (reading.positions letter).Perm (template.positions letter)) :
    reading.runs letter = template.runs letter := by
  have blocks := Run.splitBy_positions (template.chained_runs letter)
    (template.ascending_runs letter) fun run _ => Nat.zero_le run.start
  rw [flatMap_runs] at blocks
  simp only [Reading.runs, template.sort_positions letter perm, blocks]
  exact Reading.layRuns_indexed (template.chained_runs letter)

end Template

end OpenRisc
