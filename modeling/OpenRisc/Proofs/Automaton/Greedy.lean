import Mathlib.Data.Set.Subsingleton
import OpenRisc.Proofs.Automaton.Drafting
import OpenRisc.Proofs.Automaton.Path
import OpenRisc.Proofs.Automaton.Widest

set_option autoImplicit false

namespace OpenRisc.Automaton

def Fixes (patterns : List Pattern) (row p : Nat) : Prop :=
  ∃ pattern, patterns[row]? = some pattern ∧ pattern.mask.getLsbD p = true

def Shows (patterns : List Pattern) (row : Nat) (test : Span) (value : Nat) : Prop :=
  ∃ pattern, patterns[row]? = some pattern ∧ (test.read pattern.value).toNat = value

def agreeing (patterns : List Pattern) (path : List Stop) : Set Nat :=
  {row | row < patterns.length ∧ ∀ stop ∈ path, Shows patterns row stop.test stop.value}

/-- A test that could come next: a short run of bits that every row which is left fixes and that no
test of the path has looked at. -/
structure Candidate (patterns : List Pattern) (path : List Stop) (test : Span) : Prop where
  nonempty : 0 < test.width
  narrow : test.width ≤ maxTestWidth
  inside : test.start + test.width ≤ 32
  avoids : Disjoint test.bits (tested path)
  fixed : ∀ row ∈ agreeing patterns path, ∀ p ∈ test.bits, Fixes patterns row p

/-- The widest candidate, and the lowest of those. -/
structure Greedy (patterns : List Pattern) (path : List Stop) (test : Span) : Prop where
  candidate : Candidate patterns path test
  widest : ∀ other, Candidate patterns path other →
    other.width < test.width ∨ other.width = test.width ∧ test.start ≤ other.start

section

variable {patterns : List Pattern} {path : List Stop}

theorem mem_agreeing {row : Nat} : row ∈ agreeing patterns path ↔
    ∃ entry ∈ Tree.kept (entries patterns) path, entry.row = row := by
  constructor
  · rintro ⟨inside, shows⟩
    have present := List.getElem?_eq_getElem inside
    refine ⟨⟨row, patterns[row]⟩, Tree.mem_kept.mpr ⟨mem_entries.mpr present, ?_⟩, rfl⟩
    intro stop member
    obtain ⟨pattern, same, value⟩ := shows stop member
    rw [present, Option.some.injEq] at same
    rwa [same]
  · rintro ⟨entry, member, rfl⟩
    obtain ⟨known, shown⟩ := Tree.mem_kept.mp member
    have present := mem_entries.mp known
    exact ⟨row_lt_of_mem_entries known, fun stop turned =>
      ⟨entry.pattern, present, shown stop turned⟩⟩

theorem fixes_iff_of_mem {entry : Entry} (member : entry ∈ entries patterns) {p : Nat} :
    Fixes patterns entry.row p ↔ entry.pattern.mask.getLsbD p = true := by
  simp [Fixes, mem_entries.mp member]

theorem agreeing_append_singleton (node : Nat) (test : Span) (value : Nat) :
    agreeing patterns (path ++ [⟨node, test, value⟩]) =
      {row ∈ agreeing patterns path | Shows patterns row test value} := by
  ext row
  simp only [agreeing, Set.mem_ofPred_eq, List.mem_append, List.mem_singleton, or_imp, forall_and,
    forall_eq, and_assoc]

theorem fixed_of_spends (spends : Tree.Spends (BitVec.allOnes 32) (entries patterns) path) :
    ∀ row ∈ agreeing patterns path, ∀ p ∈ tested path, Fixes patterns row p := by
  intro row agrees p looked
  obtain ⟨entry, member, rfl⟩ := mem_agreeing.mp agrees
  exact (fixes_iff_of_mem (Tree.mem_kept.mp member).1).mpr (spends.fixed entry member p looked)

theorem candidate_iff {test : Span} : Candidate patterns path test ↔
    Testable (Tree.commonBits (Tree.untested (BitVec.allOnes 32) path)
      (Tree.kept (entries patterns) path)) test := by
  have free (p : Nat) : (Tree.untested (BitVec.allOnes 32) path).getLsbD p = true ↔
      p < 32 ∧ p ∉ tested path := by
    rw [← Word.mem_ones, Tree.ones_untested, Finset.mem_sdiff, Word.mem_ones,
      BitVec.getLsbD_allOnes, decide_eq_true_eq]
  constructor
  · intro candidate
    have inside := candidate.inside
    refine ⟨candidate.nonempty, candidate.narrow, inside, fun p within => ?_⟩
    have member : test.start + p ∈ test.bits := Span.mem_bits.mpr ⟨by omega, by omega⟩
    apply (Tree.getLsbD_commonBits _ _ _).mpr
    constructor
    · exact (free _).mpr ⟨by omega, Finset.disjoint_left.mp candidate.avoids member⟩
    · intro entry kept
      have agrees := mem_agreeing.mpr ⟨entry, kept, rfl⟩
      exact (fixes_iff_of_mem (Tree.mem_kept.mp kept).1).mp (candidate.fixed _ agrees _ member)
  · rintro ⟨nonempty, narrow, inside, covered⟩
    have common (p : Nat) (member : p ∈ test.bits) := (Tree.getLsbD_commonBits _ _ p).mp (by
      have bounds := Span.mem_bits.mp member
      have set := covered (p - test.start) (by omega)
      rwa [show test.start + (p - test.start) = p by omega] at set)
    refine ⟨nonempty, narrow, inside, ?_, ?_⟩
    · exact Finset.disjoint_left.mpr fun p member => ((free p).mp (common p member).1).2
    · intro row agrees p member
      obtain ⟨entry, kept, rfl⟩ := mem_agreeing.mp agrees
      exact (fixes_iff_of_mem (Tree.mem_kept.mp kept).1).mpr ((common p member).2 entry kept)

theorem greedy_of_widestRun? {test : Span}
    (chosen : widestRun? (Tree.commonBits (Tree.untested (BitVec.allOnes 32) path)
      (Tree.kept (entries patterns) path)) = some test) : Greedy patterns path test := by
  obtain ⟨testable, above⟩ := widest_iff.mp (widest_of_widestRun? chosen)
  constructor
  · exact candidate_iff.mpr testable
  · exact fun other candidate => above other (candidate_iff.mp candidate)

theorem nontrivial_of_several (several : 2 ≤ (Tree.kept (entries patterns) path).length) :
    (agreeing patterns path).Nontrivial := by
  have distinct := nodup_rows (Tree.kept_sublist (entries patterns) path)
  match kept : Tree.kept (entries patterns) path, several with
  | first :: second :: rest, _ =>
    have one : first ∈ Tree.kept (entries patterns) path := by simp [kept]
    have other : second ∈ Tree.kept (entries patterns) path := by simp [kept]
    have apart : first.row ≠ second.row := by
      rw [kept] at distinct
      simp_all
    exact ⟨_, mem_agreeing.mpr ⟨first, one, rfl⟩, _, mem_agreeing.mpr ⟨second, other, rfl⟩, apart⟩

/-- What the node is that a path leads to, by the number of rows that agree with the path. -/
inductive Settles (automaton : Automaton) (patterns : List Pattern) (path : List Stop) (node : Nat) :
    Prop where
  | invalid (read : automaton.nodes[node]? = some .invalid) (none : agreeing patterns path = ∅)
  | leaf (row : Nat) (read : automaton.nodes[node]? = some (.leaf row))
      (only : agreeing patterns path = {row})
  | branch (test : Span) (firstEdge : Nat)
      (read : automaton.nodes[node]? = some (.branch test firstEdge))
      (several : (agreeing patterns path).Nontrivial) (greedy : Greedy patterns path test)
      (linked : ∀ value < test.fanout, ∃ child, automaton.edges[firstEdge + value]? = some child)

theorem settles_of_splits {automaton : Automaton} {node : Nat} {part : Tree}
    (stored : automaton.Stores part node)
    (split : Tree.Splits (Tree.untested (BitVec.allOnes 32) path)
      (Tree.kept (entries patterns) path) part) : Settles automaton patterns path node := by
  generalize kept : Tree.kept (entries patterns) path = group at split
  cases split with
  | invalid =>
    cases stored with
    | invalid read => exact .invalid read (by ext row; simp [mem_agreeing, kept])
  | leaf _ entry =>
    cases stored with
    | leaf read => exact .leaf entry.row read (by ext row; simp [mem_agreeing, kept, eq_comm])
  | branch several chosen full parts =>
    subst kept
    cases stored with
    | branch read count inside below =>
      rename_i firstEdge
      refine .branch _ firstEdge read (nontrivial_of_several several) (greedy_of_widestRun? chosen) ?_
      intro value within
      have edge : firstEdge + value < automaton.edges.size := by omega
      exact ⟨_, Array.getElem?_eq_getElem edge⟩

end

section

variable {patterns : List Pattern} {automaton : Automaton} {path : List Stop} {node : Nat}

theorem part_of_path (done : build patterns = .ok automaton)
    (leads : automaton.Path automaton.root path node) :
    ∃ part, automaton.Stores part node ∧
      Tree.Splits (Tree.untested (BitVec.allOnes 32) path) (Tree.kept (entries patterns) path) part ∧
      Tree.Spends (BitVec.allOnes 32) (entries patterns) path := by
  obtain ⟨_, _, root, built, rfl⟩ := build_eq_ok_iff.mp done
  have split := Tree.splits_of_partition built
  exact stores_of_path leads (stores_ofTree split.full) split

theorem bears_of_path (done : build patterns = .ok automaton)
    (leads : automaton.Path automaton.root path node) (row : Nat) :
    automaton.Bears node row ↔ row ∈ agreeing patterns path := by
  obtain ⟨part, stored, split, _⟩ := part_of_path done leads
  rw [bears_iff split stored, mem_agreeing]

/-- The path that leads to a node determines the node. -/
theorem node_of_path (done : build patterns = .ok automaton)
    (leads : automaton.Path automaton.root path node) :
    (∀ row ∈ agreeing patterns path, ∀ p ∈ tested path, Fixes patterns row p) ∧
      (∀ row, automaton.nodes[node]? = some (.leaf row) ↔ agreeing patterns path = {row}) ∧
      (automaton.nodes[node]? = some .invalid ↔ agreeing patterns path = ∅) ∧
      ((agreeing patterns path).Nontrivial → ∃ test firstEdge,
        automaton.nodes[node]? = some (.branch test firstEdge) ∧ Greedy patterns path test ∧
          ∀ value < test.fanout, ∃ child, automaton.edges[firstEdge + value]? = some child ∧
            automaton.Path automaton.root (path ++ [⟨node, test, value⟩]) child ∧
            ∀ row, automaton.Bears child row ↔
              row ∈ agreeing patterns path ∧ Shows patterns row test value) ∧
      (patterns.length ≤ 2000000 → Automaton.write patterns = .ok automaton) := by
  obtain ⟨part, stored, split, spends⟩ := part_of_path done leads
  have fixed := fixed_of_spends spends
  have written := write_of_build done
  cases settles_of_splits stored split with
  | invalid read none =>
    refine ⟨fixed, ?_, ?_, ?_, written⟩
    all_goals simp [read, none]
  | leaf row read only =>
    refine ⟨fixed, ?_, ?_, ?_, written⟩
    all_goals simp [read, only, eq_comm]
  | branch test firstEdge read several greedy linked =>
    refine ⟨fixed, fun row => ?_, ?_,
      fun _ => ⟨test, firstEdge, read, greedy, fun value within => ?_⟩, written⟩
    · have many : agreeing patterns path ≠ {row} := by
        rintro single
        rw [single] at several
        exact Set.not_nontrivial_singleton several
      simp [read, many]
    · simp [read, several.nonempty.ne_empty]
    · obtain ⟨child, edge⟩ := linked value within
      have onward := leads.concat read within edge
      refine ⟨child, edge, onward, fun row => ?_⟩
      rw [bears_of_path done onward, agreeing_append_singleton]
      exact Iff.rfl

theorem node_of_path_nestedRows :
    build nestedRows = .ok nestedAutomaton ∧
      nestedAutomaton.Path nestedAutomaton.root [⟨1, ⟨30, 2⟩, 1⟩] 2 ∧
      Greedy nestedRows [⟨1, ⟨30, 2⟩, 1⟩] ⟨0, 1⟩ ∧
      ∀ row, nestedAutomaton.Bears 4 row ↔
        row ∈ agreeing nestedRows [⟨1, ⟨30, 2⟩, 1⟩] ∧ Shows nestedRows row ⟨0, 1⟩ 1 := by
  have leads : nestedAutomaton.Path nestedAutomaton.root [⟨1, ⟨30, 2⟩, 1⟩] 2 :=
    .step rfl (by decide) rfl (.here 2)
  have agrees (row : Nat) (inside : row < 2) : row ∈ agreeing nestedRows [⟨1, ⟨30, 2⟩, 1⟩] := by
    have shown : Shows nestedRows row ⟨30, 2⟩ 1 := by
      match row with
      | 0 => exact ⟨_, rfl, by decide⟩
      | 1 => exact ⟨_, rfl, by decide⟩
    have known : row < nestedRows.length := Nat.lt_trans inside (by decide)
    exact ⟨known, by simpa using shown⟩
  obtain ⟨_, _, _, branch, _⟩ := node_of_path build_nestedRows leads
  obtain ⟨test, firstEdge, read, greedy, linked⟩ :=
    branch ⟨0, agrees 0 (by decide), 1, agrees 1 (by decide), by decide⟩
  have same : Node.branch ⟨0, 1⟩ 4 = Node.branch test firstEdge := Option.some.inj read
  cases same
  obtain ⟨child, edge, _, bears⟩ := linked 1 (by decide)
  have there : 4 = child := Option.some.inj edge
  exact ⟨build_nestedRows, leads, greedy, there ▸ bears⟩

end

end OpenRisc.Automaton
