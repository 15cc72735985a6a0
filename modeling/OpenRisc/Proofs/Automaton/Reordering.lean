import Mathlib.Data.List.Nodup
import OpenRisc.Proofs.Automaton.Drafting
import OpenRisc.Proofs.Automaton.Overlap
import OpenRisc.Proofs.Automaton.Path
import OpenRisc.Proofs.Automaton.Relabelling
import OpenRisc.Proofs.Automaton.Splitting
import OpenRisc.Proofs.Selection

set_option autoImplicit false

namespace OpenRisc

def Inseparable.Alike (rename : Nat → Nat) (group other : Inseparable) : Prop :=
  (group.rows.map rename).Perm other.rows ∧ group.available = other.available

namespace Tree

theorem commonBits_of_perm {rename : Nat → Nat} {group other : List Entry}
    (perm : (group.map (Entry.relabel rename)).Perm other) (available : Word) :
    commonBits available other = commonBits available group := by
  apply BitVec.eq_of_getLsbD_eq
  intro p _
  rw [Bool.eq_iff_iff, getLsbD_commonBits, getLsbD_commonBits]
  simp [← perm.mem_iff, Entry.relabel]

theorem selected_of_perm {rename : Nat → Nat} {group other : List Entry}
    (perm : (group.map (Entry.relabel rename)).Perm other) (test : Span) (value : Nat) :
    ((selected test value group).map (Entry.relabel rename)).Perm (selected test value other) := by
  have kept := perm.filter fun entry => (test.read entry.pattern.value).toNat == value
  rw [List.filter_map] at kept
  exact kept

theorem rows_of_perm {rename : Nat → Nat} {group other : List Entry}
    (perm : (group.map (Entry.relabel rename)).Perm other) :
    ((group.map Entry.row).map rename).Perm (other.map Entry.row) := by
  have rows := perm.map Entry.row
  rw [List.map_map] at rows
  rw [List.map_map]
  exact rows

theorem matches_partition {rename : Nat → Nat} (available : Word) (group : List Entry)
    {other : List Entry} (perm : (group.map (Entry.relabel rename)).Perm other) :
    Traversal.Matches (relabel rename) (Inseparable.Alike rename) (partition available group)
      (partition available other) := by
  induction available, group using partition.induct generalizing other with
  | case1 available =>
    obtain rfl := List.nil_perm.mp perm
    rw [partition]
    exact Traversal.Matches.ok Tree.invalid
  | case2 available entry =>
    obtain rfl := List.singleton_perm.mp perm
    rw [partition, partition]
    exact Traversal.Matches.ok (Tree.leaf entry.row)
  | case3 available first second rest group =>
    rename_i exhausted
    have common := commonBits_of_perm perm available
    have several : 2 ≤ (first :: second :: rest).length := by simp
    have several' : 2 ≤ other.length := by simp [← perm.length_eq]
    rw [partition_of_none several exhausted, partition_of_none several' (common ▸ exhausted)]
    exact Traversal.Matches.error ⟨rows_of_perm perm, rfl⟩
  | case4 available first second rest group test =>
    rename_i chosen ih
    have common := commonBits_of_perm perm available
    have several : 2 ≤ (first :: second :: rest).length := by simp
    have several' : 2 ≤ other.length := by simp [← perm.length_eq]
    rw [partition_of_some several chosen, partition_of_some several' (common ▸ chosen)]
    have children := Traversal.matches_mapM fun value (_ : value ∈ List.range test.fanout) =>
      ih value (selected_of_perm perm test value)
    exact children.finish fun children => by rw [relabel, relabelForest_eq_map]

end Tree

inductive AutomatonError.Alike (rename : Nat → Nat) : AutomatonError → AutomatonError → Prop where
  | emptyTable : Alike rename .emptyTable .emptyTable
  | overlapping (i j k l : Nat) : Alike rename (.overlapping i j) (.overlapping k l)
  | inseparable {group other : Inseparable} (same : group.Alike rename other) :
      Alike rename (.inseparable group) (.inseparable other)

namespace Automaton

theorem patterns_entries (patterns : List Pattern) :
    (entries patterns).map Entry.pattern = patterns := by
  rw [entries, List.map_map]
  exact List.zipIdx_map_fst 0 patterns

theorem nodup_entries (patterns : List Pattern) : (entries patterns).Nodup := by
  have rows := nodup_rows (List.Sublist.refl (entries patterns))
  exact rows.of_map

section

variable {patterns moved : List Pattern} {chosen : List Nat}

theorem nodup_relabelled (reorders : Reorders chosen patterns moved) :
    ((entries moved).map (Entry.relabel (Selects.origin chosen))).Nodup := by
  refine (List.nodup_map_iff_inj_on (nodup_entries moved)).mpr ?_
  intro one here other there same
  have rows := reorders.origin_inj (row_lt_of_mem_entries here) (row_lt_of_mem_entries there)
    (congrArg Entry.row same)
  have patterns := congrArg Entry.pattern same
  cases one
  cases other
  simp_all [Entry.relabel]

theorem mem_relabelled (reorders : Reorders chosen patterns moved) (entry : Entry) :
    entry ∈ (entries moved).map (Entry.relabel (Selects.origin chosen)) ↔
      entry ∈ entries patterns := by
  rw [List.mem_map, mem_entries]
  constructor
  · rintro ⟨taken, member, rfl⟩
    obtain ⟨i, position, original⟩ := reorders.chosen_of_item (mem_entries.mp member)
    rw [Entry.relabel, Selects.origin_eq position]
    exact original
  · intro present
    have inside := row_lt_of_mem_entries (mem_entries.mpr present)
    obtain ⟨k, position⟩ := List.mem_iff_getElem?.mp (reorders.all entry.row inside)
    have taken := (reorders.same k entry.row position).trans present
    refine ⟨⟨k, entry.pattern⟩, mem_entries.mpr taken, ?_⟩
    rw [Entry.relabel, Selects.origin_eq position]

theorem entries_perm (reorders : Reorders chosen patterns moved) :
    ((entries moved).map (Entry.relabel (Selects.origin chosen))).Perm (entries patterns) :=
  (List.perm_ext_iff_of_nodup (nodup_relabelled reorders) (nodup_entries patterns)).mpr
    (mem_relabelled reorders)

theorem patterns_perm (reorders : Reorders chosen patterns moved) : moved.Perm patterns := by
  have perm := (entries_perm reorders).map Entry.pattern
  have kept : Entry.pattern ∘ Entry.relabel (Selects.origin chosen) = Entry.pattern := rfl
  rwa [List.map_map, kept, patterns_entries, patterns_entries] at perm

theorem firstOverlap?_eq_none_of_perm (perm : moved.Perm patterns) :
    firstOverlap? moved = none ↔ firstOverlap? patterns = none := by
  rw [firstOverlap?_eq_none_iff, firstOverlap?_eq_none_iff]
  refine perm.pairwise_iff fun {left right} apart => ?_
  rw [Pattern.overlaps_comm]
  exact apart

theorem matches_build (reorders : Reorders chosen patterns moved) :
    Traversal.Matches (Automaton.relabel (Selects.origin chosen))
      (AutomatonError.Alike (Selects.origin chosen)) (build moved) (build patterns) := by
  have perm := patterns_perm reorders
  have trees := Tree.matches_partition (BitVec.allOnes 32) (entries moved) (entries_perm reorders)
  rw [build, build, perm.isEmpty_eq]
  split
  next => exact .error .emptyTable
  next =>
    cases found : firstOverlap? moved with
    | none =>
      rw [(firstOverlap?_eq_none_of_perm perm).mp found]
      simp only [tree]
      generalize Tree.partition _ (entries moved) = first,
        Tree.partition _ (entries patterns) = second at trees
      cases trees with
      | ok root =>
        simp only [ofTree_relabel]
        exact .ok (ofTree root)
      | error same => exact .error (.inseparable same)
    | some pair =>
      cases found' : firstOverlap? patterns with
      | none => simp [(firstOverlap?_eq_none_of_perm perm).mpr found'] at found
      | some pair' => exact .error (.overlapping ..)

/-- Rows in another order have the same automaton but for the numbers in its leaves. -/
theorem build_reordered (reorders : Reorders chosen patterns moved) :
    Traversal.Matches (Automaton.relabel (Selects.origin chosen))
        (AutomatonError.Alike (Selects.origin chosen)) (build moved) (build patterns) ∧
      (patterns.length ≤ 2000000 →
        Automaton.write moved = (build moved).mapError .rejected ∧
          Automaton.write patterns = (build patterns).mapError .rejected) := by
  refine ⟨matches_build reorders, fun few => ⟨write_eq_build ?_, write_eq_build few⟩⟩
  rwa [(patterns_perm reorders).length_eq]

end

def turnedRows : List Pattern :=
  [⟨0xC0000001, 0xC0000000⟩, ⟨0xC0000001, 0x40000000⟩, ⟨0xC0000001, 0x40000001⟩]

theorem build_turnedRows :
    ∃ automaton, build turnedRows = .ok automaton ∧
      automaton.relabel (Selects.origin [2, 0, 1]) = nestedAutomaton := by
  have reorders : Reorders [2, 0, 1] nestedRows turnedRows :=
    ⟨.of_map (by decide) rfl, by decide⟩
  have same := (build_reordered reorders).1
  rw [build_nestedRows] at same
  generalize build turnedRows = built, nestedAutomaton = whole at same ⊢
  cases same with
  | ok automaton => exact ⟨automaton, rfl, rfl⟩

end Automaton

end OpenRisc
