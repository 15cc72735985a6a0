import Mathlib.Data.Finset.Card
import OpenRisc.Proofs.Automaton.Overlap
import OpenRisc.Proofs.Automaton.Splitting

set_option autoImplicit false

namespace OpenRisc

namespace Automaton

def FixedByAll (patterns : List Pattern) (members : Finset Nat) (p : Nat) : Prop :=
  ∀ row ∈ members, ∃ pattern, patterns[row]? = some pattern ∧ pattern.mask.getLsbD p = true

def Disputed (patterns : List Pattern) (members : Finset Nat) (p : Nat) : Prop :=
  ∃ first ∈ members, ∃ second ∈ members, ∃ left right, patterns[first]? = some left ∧
    patterns[second]? = some right ∧ left.value.getLsbD p ≠ right.value.getLsbD p

/-- Any two or more rows differ in a bit that all of them fix. -/
def Separable (patterns : List Pattern) : Prop :=
  ∀ members : Finset Nat, (∀ row ∈ members, row < patterns.length) → 2 ≤ members.card →
    ∃ p, FixedByAll patterns members p ∧ Disputed patterns members p

end Automaton

namespace Tree

inductive Separated : List Entry → Prop where
  | single {group : List Entry} (few : group.length ≤ 1) : Separated group
  | test {group : List Entry} (bits : Word)
      (fixed : ∀ entry ∈ group, entry.pattern.mask &&& bits = bits)
      (parts : ∀ value : Word,
        Separated (group.filter fun entry => entry.pattern.value &&& bits == value)) :
      Separated group

theorem mask_and_test {available : Word} {group : List Entry} {test : Span}
    (fits : Fits available group test) {entry : Entry} (member : entry ∈ group) :
    entry.pattern.mask &&& test.mask = test.mask := by
  have full : entry.pattern.mask &&& test.mask = BitVec.allOnes 32 &&& test.mask := by
    rw [Span.and_mask_eq_iff]
    intro p within inside
    rw [fits.fixed entry member p within, BitVec.getLsbD_allOnes]
    simp [inside]
  rw [full, BitVec.allOnes_and]

theorem Splits.separated {available : Word} {group : List Entry} {tree : Tree}
    (split : Splits available group tree) : Separated group := by
  induction split with
  | invalid available => exact .single (by simp)
  | leaf available entry => exact .single (by simp)
  | @branch available group test children several chosen full parts ih =>
    refine .test test.mask (fun entry => mask_and_test (fits_of_widestRun? chosen)) fun value => ?_
    -- A part that has an entry is the part of the value which that entry shows.
    cases part : group.filter fun entry => entry.pattern.value &&& test.mask == value with
    | nil => exact .single (by simp)
    | cons entry rest =>
      have member : entry ∈ group.filter fun entry => entry.pattern.value &&& test.mask == value :=
        part ▸ List.mem_cons_self
      have shown : entry.pattern.value &&& test.mask = value := by
        simpa using (List.mem_filter.mp member).2
      have below : (test.read entry.pattern.value).toNat < children.length :=
        full ▸ test.toNat_read_lt _
      have same : selected test (test.read entry.pattern.value).toNat group =
          group.filter fun entry => entry.pattern.value &&& test.mask == value := by
        apply List.filter_congr
        intro other _
        rw [Bool.eq_iff_iff, beq_iff_eq, beq_iff_eq, ← shown, Span.and_mask_eq_iff_read,
          BitVec.toNat_inj]
      rw [← part, ← same]
      exact ih _ _ (List.getElem?_eq_getElem below)

def Holds (patterns : List Pattern) (members : Finset Nat) (group : List Entry) : Prop :=
  ∀ row ∈ members, ∃ pattern, patterns[row]? = some pattern ∧ ⟨row, pattern⟩ ∈ group

theorem holds_entries {patterns : List Pattern} {members : Finset Nat}
    (inside : ∀ row ∈ members, row < patterns.length) :
    Holds patterns members (Automaton.entries patterns) := by
  intro row member
  have present := List.getElem?_eq_getElem (inside row member)
  exact ⟨_, present, Automaton.mem_entries.mpr present⟩

theorem not_holds_of_few {patterns : List Pattern} {members : Finset Nat} {group : List Entry}
    (several : 2 ≤ members.card) (few : group.length ≤ 1) : ¬ Holds patterns members group := by
  intro held
  obtain ⟨first, one, second, other, different⟩ := Finset.one_lt_card.mp several
  obtain ⟨left, _, here⟩ := held first one
  obtain ⟨right, _, there⟩ := held second other
  match group, few with
  | [], _ => simp at here
  | [entry], _ =>
    rw [List.mem_singleton] at here there
    exact different (congrArg Entry.row (here.trans there.symm))

theorem Separated.exists_disputed {group : List Entry} (separated : Separated group)
    {patterns : List Pattern} {members : Finset Nat} (several : 2 ≤ members.card)
    (held : Holds patterns members group) :
    ∃ p, Automaton.FixedByAll patterns members p ∧ Automaton.Disputed patterns members p := by
  induction separated with
  | single few => exact absurd held (not_holds_of_few several few)
  | @test group bits fixed parts ih =>
    obtain ⟨first, one⟩ := Finset.card_pos.mp (Nat.lt_of_lt_of_le Nat.zero_lt_two several)
    obtain ⟨left, here, kept⟩ := held first one
    by_cases together : Holds patterns members
        (group.filter fun entry => entry.pattern.value &&& bits == left.value &&& bits)
    · exact ih _ together
    · simp only [Holds, not_forall] at together
      obtain ⟨second, other, apart⟩ := together
      obtain ⟨right, there, also⟩ := held second other
      have different : left.value &&& bits ≠ right.value &&& bits := by
        intro same
        exact apart ⟨right, there, by simp [also, same]⟩
      obtain ⟨p, bit⟩ : ∃ p, (left.value &&& bits).getLsbD p ≠ (right.value &&& bits).getLsbD p := by
        by_contra none
        simp only [ne_eq, not_exists, not_not] at none
        exact different (BitVec.eq_of_getLsbD_eq fun p _ => none p)
      simp only [BitVec.getLsbD_and, ne_eq] at bit
      have looked : bits.getLsbD p = true := by
        by_contra unlooked
        rw [Bool.not_eq_true] at unlooked
        simp [unlooked] at bit
      refine ⟨p, fun row member => ?_, first, one, second, other, left, right, here, there, ?_⟩
      · obtain ⟨pattern, present, inside⟩ := held row member
        have fix := congrArg (fun word => word.getLsbD p) (fixed _ inside)
        exact ⟨pattern, present, by simpa [looked] using fix⟩
      · simpa [looked] using bit

def Settled (available : Word) (group : List Entry) : Prop :=
  ∀ p, available.getLsbD p = false → ∀ left ∈ group, ∀ right ∈ group,
    left.pattern.value.getLsbD p = right.pattern.value.getLsbD p

theorem settled_allOnes (group : List Entry) : Settled (BitVec.allOnes 32) group := by
  intro p tested left _ right _
  rw [BitVec.getLsbD_allOnes, decide_eq_false_iff_not] at tested
  have outside : 32 ≤ p := by omega
  rw [BitVec.getLsbD_of_ge _ _ outside, BitVec.getLsbD_of_ge _ _ outside]

theorem Settled.selected {available : Word} {group : List Entry} (settled : Settled available group)
    (test : Span) (value : Nat) :
    Settled (available &&& ~~~test.mask) (selected test value group) := by
  intro p tested left one right other
  obtain ⟨here, shown⟩ := mem_selected.mp one
  obtain ⟨there, also⟩ := mem_selected.mp other
  cases free : available.getLsbD p
  · exact settled p free left here right there
  · have inside := BitVec.lt_of_getLsbD free
    rw [BitVec.getLsbD_and, free, BitVec.getLsbD_not, Span.getLsbD_mask] at tested
    have looked : test.start ≤ p ∧ p < test.start + test.width := by simpa [inside] using tested
    have bit := (test.read_eq_read_iff _ _).mp (BitVec.eq_of_toNat_eq (shown.trans also.symm))
      (p - test.start) (by omega)
    rwa [show test.start + (p - test.start) = p by omega] at bit

theorem Stuck.exists_members {available : Word} {group : List Entry} {stuck : Inseparable}
    (ended : Stuck available group stuck) (settled : Settled available group) :
    ∃ members : List Entry, members.Sublist group ∧ stuck.rows = members.map Entry.row ∧
      2 ≤ members.length ∧ commonBits stuck.available members = 0 ∧
      Settled stuck.available members := by
  induction ended with
  | now several exhausted => exact ⟨_, List.Sublist.refl _, rfl, several, exhausted, settled⟩
  | later chosen value part ih =>
    obtain ⟨members, inside, same⟩ := ih (settled.selected _ value)
    exact ⟨members, inside.trans List.filter_sublist, same⟩

end Tree

namespace Automaton

theorem not_disputed_of_overlaps {patterns : List Pattern} {i j : Nat} {left right : Pattern}
    (here : patterns[i]? = some left) (there : patterns[j]? = some right)
    (overlap : left.overlaps right = true) {p : Nat} (fixed : FixedByAll patterns {i, j} p) :
    ¬ Disputed patterns {i, j} p := by
  have bit : left.value.getLsbD p = right.value.getLsbD p := by
    obtain ⟨one, same, fix⟩ := fixed i (by simp)
    obtain ⟨two, also, fix'⟩ := fixed j (by simp)
    rw [here, Option.some.injEq] at same
    rw [there, Option.some.injEq] at also
    subst same also
    exact (Pattern.overlaps_iff _ _).mp overlap p fix fix'
  rintro ⟨first, one, second, two, a, b, first_is, second_is, differ⟩
  simp only [Finset.mem_insert, Finset.mem_singleton] at one two
  apply differ
  rcases one with rfl | rfl <;> rcases two with rfl | rfl <;> simp_all

theorem Separable.disjoint {patterns : List Pattern} (separable : Separable patterns) :
    firstOverlap? patterns = none := by
  cases found : firstOverlap? patterns with
  | none => rfl
  | some pair =>
    obtain ⟨ordered, left, right, here, there, overlap⟩ :=
      (firstOverlap_of_found found).overlapping
    have inside : ∀ row ∈ ({pair.1, pair.2} : Finset Nat), row < patterns.length := by
      simp only [Finset.mem_insert, Finset.mem_singleton]
      rintro row (rfl | rfl)
      · exact (List.getElem?_eq_some_iff.mp here).1
      · exact (List.getElem?_eq_some_iff.mp there).1
    obtain ⟨p, fixed, disputed⟩ :=
      separable _ inside (Finset.card_pair (Nat.ne_of_lt ordered)).ge
    exact absurd disputed (not_disputed_of_overlaps here there overlap fixed)

theorem separable_of_separated {patterns : List Pattern}
    (separated : Tree.Separated (entries patterns)) : Separable patterns :=
  fun _ inside several => separated.exists_disputed several (Tree.holds_entries inside)

/-- What a rejected group is like: its rows cannot be told apart by any bit that all of them fix. -/
structure Clash (patterns : List Pattern) (group : Inseparable) : Prop where
  inside : ∀ row ∈ group.rows, row < patterns.length
  distinct : group.rows.Nodup
  agree : ∀ p, FixedByAll patterns group.rows.toFinset p → ¬ Disputed patterns group.rows.toFinset p
  tested : ∀ p, FixedByAll patterns group.rows.toFinset p → group.available.getLsbD p = false

theorem fixed_of_fixedByAll {patterns : List Pattern} {members : List Entry} {p : Nat}
    (known : ∀ entry ∈ members, entry ∈ entries patterns)
    (fixed : FixedByAll patterns (members.map Entry.row).toFinset p) :
    ∀ entry ∈ members, entry.pattern.mask.getLsbD p = true := by
  intro entry member
  obtain ⟨pattern, present, fix⟩ :=
    fixed entry.row (List.mem_toFinset.mpr (List.mem_map_of_mem member))
  rw [mem_entries.mp (known entry member), Option.some.injEq] at present
  exact present ▸ fix

theorem clash_of_stuck {patterns : List Pattern} {group : Inseparable}
    (stuck : Tree.Stuck (BitVec.allOnes 32) (entries patterns) group) :
    Clash patterns group ∧ 2 ≤ group.rows.length := by
  obtain ⟨members, kept, rows, several, exhausted, settled⟩ :=
    stuck.exists_members (Tree.settled_allOnes _)
  have known : ∀ entry ∈ members, entry ∈ entries patterns := fun _ member => kept.subset member
  have tested (p : Nat) (fixed : FixedByAll patterns group.rows.toFinset p) :
      group.available.getLsbD p = false := by
    rw [rows] at fixed
    by_contra free
    have common := (Tree.getLsbD_commonBits group.available members p).mpr
      ⟨by simpa using free, fixed_of_fixedByAll known fixed⟩
    simp [exhausted] at common
  refine ⟨⟨?_, ?_, ?_, tested⟩, ?_⟩
  · intro row member
    obtain ⟨entry, inside, rfl⟩ := List.mem_map.mp (rows ▸ member)
    exact row_lt_of_mem_entries (known entry inside)
  · rw [rows]
    exact nodup_rows kept
  · rintro p fixed ⟨first, one, second, two, left, right, here, there, differ⟩
    rw [rows, List.mem_toFinset, List.mem_map] at one two
    obtain ⟨entry, inside, rfl⟩ := one
    obtain ⟨other, also, rfl⟩ := two
    rw [mem_entries.mp (known entry inside), Option.some.injEq] at here
    rw [mem_entries.mp (known other also), Option.some.injEq] at there
    subst here there
    exact differ (settled p (tested p fixed) entry inside other also)
  · rw [rows, List.length_map]
    exact several

theorem Clash.three {patterns : List Pattern} {group : Inseparable} (clash : Clash patterns group)
    (several : 2 ≤ group.rows.length) (disjoint : firstOverlap? patterns = none) :
    3 ≤ group.rows.length := by
  by_contra few
  obtain ⟨i, j, pair⟩ := List.length_eq_two.mp (show group.rows.length = 2 by omega)
  have different : i ≠ j := by simpa [pair] using clash.distinct
  have here := List.getElem?_eq_getElem (clash.inside i (by simp [pair]))
  have there := List.getElem?_eq_getElem (clash.inside j (by simp [pair]))
  have apart := disjoint_of_firstOverlap? disjoint different here there
  rw [← Bool.not_eq_true, Pattern.overlaps_iff] at apart
  refine apart fun p fix also => ?_
  by_contra differ
  have rows : group.rows.toFinset = {i, j} := by simp [pair]
  refine clash.agree p ?_ ?_
  · rw [rows]
    intro row member
    simp only [Finset.mem_insert, Finset.mem_singleton] at member
    rcases member with rfl | rfl
    · exact ⟨_, here, fix⟩
    · exact ⟨_, there, also⟩
  · rw [rows]
    exact ⟨i, by simp, j, by simp, _, _, here, there, differ⟩

theorem Clash.not_separable {patterns : List Pattern} {group : Inseparable}
    (clash : Clash patterns group) (several : 2 ≤ group.rows.length) : ¬ Separable patterns := by
  intro separable
  have inside : ∀ row ∈ group.rows.toFinset, row < patterns.length := by
    intro row member
    exact clash.inside row (List.mem_toFinset.mp member)
  obtain ⟨p, fixed, disputed⟩ := separable group.rows.toFinset inside
    (by rwa [List.toFinset_card_of_nodup clash.distinct])
  exact clash.agree p fixed disputed

theorem exists_tree_of_separable {patterns : List Pattern} (separable : Separable patterns) :
    ∃ root, tree patterns = .ok root := by
  cases built : tree patterns with
  | ok root => exact ⟨root, rfl⟩
  | error group =>
    obtain ⟨clash, several⟩ := clash_of_stuck (Tree.stuck_of_partition built)
    exact absurd separable (clash.not_separable several)

theorem separated_of_tree {patterns : List Pattern} {root : Tree} (built : tree patterns = .ok root) :
    Tree.Separated (entries patterns) :=
  (Tree.splits_of_partition built).separated

/-- The greedy partition accepts exactly the tables that some choice of tests can separate. -/
theorem build_succeeds_iff (patterns : List Pattern) :
    ((∃ automaton, build patterns = .ok automaton) ↔ patterns ≠ [] ∧ Separable patterns) ∧
      ((∃ automaton, build patterns = .ok automaton) ↔
        patterns ≠ [] ∧ Tree.Separated (entries patterns)) ∧
      ∀ group, build patterns = .error (.inseparable group) →
        3 ≤ group.rows.length ∧ Clash patterns group := by
  have sound : (∃ automaton, build patterns = .ok automaton) →
      patterns ≠ [] ∧ Tree.Separated (entries patterns) := by
    rintro ⟨automaton, done⟩
    obtain ⟨nonempty, _, root, built, _⟩ := build_eq_ok_iff.mp done
    exact ⟨nonempty, separated_of_tree built⟩
  have complete : patterns ≠ [] → Separable patterns →
      ∃ automaton, build patterns = .ok automaton := by
    intro nonempty separable
    obtain ⟨root, built⟩ := exists_tree_of_separable separable
    exact ⟨ofTree root, build_eq_ok_iff.mpr ⟨nonempty, separable.disjoint, root, built, rfl⟩⟩
  refine ⟨⟨?_, ?_⟩, ⟨sound, ?_⟩, ?_⟩
  · exact fun done => ⟨(sound done).1, separable_of_separated (sound done).2⟩
  · exact fun ⟨nonempty, separable⟩ => complete nonempty separable
  · exact fun ⟨nonempty, separated⟩ => complete nonempty (separable_of_separated separated)
  · intro group failed
    obtain ⟨_, disjoint, built⟩ := build_eq_inseparable_iff.mp failed
    obtain ⟨clash, several⟩ := clash_of_stuck (Tree.stuck_of_partition built)
    exact ⟨clash.three several disjoint, clash⟩

-- Every two of the rows differ in a bit that both fix, but no bit is fixed by all three.
theorem build_rejects_three_rows :
    let patterns : List Pattern :=
      [⟨0xC0000000, 0x80000000⟩, ⟨0xA0000000, 0x20000000⟩, ⟨0x60000000, 0x40000000⟩]
    let group : Inseparable := ⟨[0, 1, 2], 0xFFFFFFFF⟩
    build patterns = .error (.inseparable group) ∧ 3 ≤ group.rows.length ∧ Clash patterns group := by
  intro patterns group
  have failed : build patterns = .error (.inseparable group) := by cbv
  exact ⟨failed, (build_succeeds_iff patterns).2.2 group failed⟩

end Automaton

end OpenRisc
