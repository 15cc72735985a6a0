import OpenRisc.Automaton.Tree
import OpenRisc.Proofs.Traversal
import OpenRisc.Proofs.Automaton.Widest

set_option autoImplicit false

namespace OpenRisc.Tree

inductive Splits : Word → List Entry → Tree → Prop where
  | invalid (available : Word) : Splits available [] .invalid
  | leaf (available : Word) (entry : Entry) : Splits available [entry] (.leaf entry.row)
  | branch {available : Word} {group : List Entry} {test : Span} {children : List Tree}
      (several : 2 ≤ group.length)
      (chosen : Automaton.widestRun? (commonBits available group) = some test)
      (full : children.length = test.fanout)
      (parts : ∀ (value : Nat) (child : Tree), children[value]? = some child →
        Splits (available &&& ~~~test.mask) (selected test value group) child) :
      Splits available group (.branch test children)

inductive Stuck : Word → List Entry → Inseparable → Prop where
  | now {available : Word} {group : List Entry} (several : 2 ≤ group.length)
      (exhausted : commonBits available group = 0) :
      Stuck available group ⟨group.map Entry.row, available⟩
  | later {available : Word} {group : List Entry} {test : Span} {stuck : Inseparable}
      (chosen : Automaton.widestRun? (commonBits available group) = some test) (value : Nat)
      (part : Stuck (available &&& ~~~test.mask) (selected test value group) stuck) :
      Stuck available group stuck

structure Fits (available : Word) (group : List Entry) (test : Span) : Prop where
  nonempty : 0 < test.width
  narrow : test.width ≤ Automaton.maxTestWidth
  inside : test.start + test.width ≤ 32
  untested : ∀ p < test.width, available.getLsbD (test.start + p) = true
  fixed : ∀ entry ∈ group, ∀ p < test.width, entry.pattern.mask.getLsbD (test.start + p) = true

theorem fits_of_widestRun? {available : Word} {group : List Entry} {test : Span}
    (chosen : Automaton.widestRun? (commonBits available group) = some test) :
    Fits available group test := by
  obtain ⟨nonempty, narrow, inside, covered⟩ := (Automaton.widest_of_widestRun? chosen).testable
  have common (p : Nat) (within : p < test.width) :=
    (getLsbD_commonBits available group (test.start + p)).mp (covered p within)
  exact
    { nonempty
      narrow
      inside
      untested := fun p within => (common p within).1
      fixed := fun entry member p within => (common p within).2 entry member }

theorem mem_selected {test : Span} {value : Nat} {group : List Entry} {entry : Entry} :
    entry ∈ selected test value group ↔
      entry ∈ group ∧ (test.read entry.pattern.value).toNat = value := by
  simp [selected]

theorem partition_of_none {available : Word} {group : List Entry} (several : 2 ≤ group.length)
    (exhausted : Automaton.widestRun? (commonBits available group) = none) :
    partition available group = .error ⟨group.map Entry.row, available⟩ := by
  match group, several with
  | first :: second :: rest, _ =>
    rw [partition]
    split
    next => rfl
    next chosen => simp [exhausted] at chosen

theorem partition_of_some {available : Word} {group : List Entry} {test : Span}
    (several : 2 ≤ group.length)
    (chosen : Automaton.widestRun? (commonBits available group) = some test) :
    partition available group = do
      let children ← (List.range test.fanout).mapM fun value =>
        partition (available &&& ~~~test.mask) (selected test value group)
      return .branch test children := by
  match group, several with
  | first :: second :: rest, _ =>
    rw [partition]
    split
    next exhausted => simp [chosen] at exhausted
    next other same =>
      rw [chosen] at same
      cases same
      rfl

theorem partition_ends (available : Word) (group : List Entry) :
    (∃ tree, partition available group = .ok tree ∧ Splits available group tree) ∨
      ∃ stuck, partition available group = .error stuck ∧ Stuck available group stuck := by
  induction available, group using partition.induct with
  | case1 available => exact .inl ⟨.invalid, by rw [partition], .invalid available⟩
  | case2 available entry => exact .inl ⟨.leaf entry.row, by rw [partition], .leaf available entry⟩
  | case3 available first second rest group exhausted =>
    have several : 2 ≤ (first :: second :: rest).length := by simp
    refine .inr ⟨_, partition_of_none several exhausted, .now several ?_⟩
    exact (Automaton.widestRun?_eq_none_iff _).mp exhausted
  | case4 available first second rest group test chosen ih =>
    have several : 2 ≤ (first :: second :: rest).length := by simp
    rw [partition_of_some several chosen]
    cases done : (List.range test.fanout).mapM fun value =>
        partition (available &&& ~~~test.mask) (selected test value (first :: second :: rest)) with
    | ok children =>
      refine .inl ⟨.branch test children, rfl, .branch several chosen ?_ ?_⟩
      · simpa using Traversal.length_of_mapM done
      · intro value child present
        obtain ⟨other, found, built⟩ := Traversal.item_of_mapM done present
        have same : value = other := by
          rw [List.getElem?_range (by simpa using (List.getElem?_eq_some_iff.mp found).1)] at found
          exact Option.some.inj found
        subst same
        rcases ih value with ⟨tree, answer, split⟩ | ⟨stuck, answer, _⟩
        · rw [built] at answer
          cases answer
          exact split
        · rw [built] at answer
          cases answer
    | error stuck =>
      refine .inr ⟨stuck, rfl, ?_⟩
      obtain ⟨value, _, failed⟩ := Traversal.error_of_mapM done
      rcases ih value with ⟨tree, answer, _⟩ | ⟨other, answer, part⟩
      · rw [failed] at answer
        cases answer
      · rw [failed] at answer
        cases answer
        exact .later chosen value part

theorem splits_of_partition {available : Word} {group : List Entry} {tree : Tree}
    (built : partition available group = .ok tree) : Splits available group tree := by
  rcases partition_ends available group with ⟨other, answer, split⟩ | ⟨stuck, answer, _⟩
  · rw [built] at answer
    cases answer
    exact split
  · rw [built] at answer
    cases answer

theorem stuck_of_partition {available : Word} {group : List Entry} {stuck : Inseparable}
    (failed : partition available group = .error stuck) : Stuck available group stuck := by
  rcases partition_ends available group with ⟨tree, answer, _⟩ | ⟨other, answer, ended⟩
  · rw [failed] at answer
    cases answer
  · rw [failed] at answer
    cases answer
    exact ended

end OpenRisc.Tree
