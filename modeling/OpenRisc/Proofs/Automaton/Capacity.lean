import OpenRisc.Proofs.Automaton.Drafting
import OpenRisc.Proofs.Automaton.Flattening

set_option autoImplicit false

namespace OpenRisc.Automaton

variable {automaton : Automaton} {patterns : List Pattern}

theorem sizes_of_build (done : build patterns = .ok automaton) :
    automaton.nodes.size ≤ 1 + 33 * patterns.length ∧
      automaton.edges.size ≤ 1024 * patterns.length ∧
      automaton.serialize.size ≤ 1 + 1032 * patterns.length := by
  have image := size_serialize (sound_of_build done)
  have records := sum_recordSize_of_build done
  obtain ⟨_, _, root, built, rfl⟩ := build_eq_ok_iff.mp done
  have split := Tree.splits_of_partition built
  have length : (entries patterns).length = patterns.length := by simp [entries]
  have budget := Nat.add_le_add_left (Word.card_ones_le (BitVec.allOnes 32)) 1
  have nodes := split.nodeCount_le.trans (Nat.mul_le_mul_left _ budget)
  have edges := split.edgeCount_le
  have edgeCount : (ofTree root).edges.size = root.edgeCount := by
    simp [ofTree, Tree.length_layoutEdges]
  rw [length] at nodes edges
  rw [size_nodes_ofTree, edgeCount, image]
  omega

/-- The words of an image say what they stand for. -/
structure Representable (automaton : Automaton) : Prop where
  written : automaton.flatten = automaton.serialize
  short : automaton.serialize.size < leafMarker.toNat
  position : ∀ position ≤ automaton.serialize.size, (BitVec.ofNat 32 position).toNat = position
  branch : ∀ (node firstEdge : Nat) (test : Span),
    automaton.nodes[node]? = some (.branch test firstEdge) →
      (automaton.entry node).toNat = automaton.recordOffset node ∧
        automaton.recordOffset node < leafMarker.toNat
  leaf : ∀ node row : Nat, automaton.nodes[node]? = some (.leaf row) →
    (BitVec.ofNat 32 row).toNat = row ∧ automaton.entry node = leafMarker ||| BitVec.ofNat 32 row ∧
      automaton.entry node ≠ invalidEntry

theorem representable_of_build (few : patterns.length ≤ 2000000)
    (done : build patterns = .ok automaton) : automaton.Representable := by
  have compact := compact_of_build few done
  have short : automaton.serialize.size < leafMarker.toNat := by
    have size := (sizes_of_build done).2.2
    rw [show leafMarker.toNat = 2 ^ 31 from rfl]
    omega
  have bound : leafMarker.toNat < 2 ^ 32 := by decide
  constructor
  case written => exact flatten_eq_serialize few done
  case short => exact short
  case position => exact fun position inside => Word.toNat_ofNat_of_lt (by omega)
  case branch =>
    exact fun node _ _ read => ⟨(entry_branch compact read).2, recordOffset_lt compact node⟩
  case leaf =>
    intro node row read
    have small : row < 2 ^ 31 - 1 := compact.node read
    exact ⟨Word.toNat_ofNat_of_lt (by omega), by simp only [entry, read],
      (entry_leaf compact read).1⟩

/-- The sizes of a built automaton, and what they mean for the numbers that are kept in 32 bits. -/
theorem build_within_capacity (patterns : List Pattern) :
    (∀ automaton, build patterns = .ok automaton →
      automaton.nodes.size ≤ 1 + 33 * patterns.length ∧
        automaton.edges.size ≤ 1024 * patterns.length ∧
        automaton.serialize.size ≤ 1 + 1032 * patterns.length) ∧
    (patterns.length ≤ 2000000 →
      (∀ number, Automaton.write patterns ≠ .error (.truncated number)) ∧
        Automaton.write patterns = (build patterns).mapError .rejected ∧
        ∀ automaton, build patterns = .ok automaton → automaton.Representable) := by
  refine ⟨fun automaton done => sizes_of_build done, fun few => ?_⟩
  have written := write_eq_build few
  refine ⟨fun number truncated => ?_, written, fun automaton => representable_of_build few⟩
  rw [written] at truncated
  cases answer : build patterns <;> simp [answer, Except.mapError] at truncated

theorem nestedRows_within_capacity :
    nestedRows.length ≤ 2000000 ∧ build nestedRows = .ok nestedAutomaton ∧
      Automaton.write nestedRows = .ok nestedAutomaton ∧ nestedAutomaton.Representable ∧
      nestedAutomaton.serialize.size ≤ 1 + 1032 * 3 := by
  obtain ⟨sizes, casts⟩ := build_within_capacity nestedRows
  obtain ⟨_, written, representable⟩ := casts (by decide)
  rw [build_nestedRows] at written
  exact ⟨by decide, build_nestedRows, written, representable _ build_nestedRows,
    (sizes _ build_nestedRows).2.2⟩

end OpenRisc.Automaton
