import OpenRisc.Proofs.Automaton.Arena

set_option autoImplicit false

namespace OpenRisc

def Span.bits (span : Span) : Finset Nat :=
  Finset.Ico span.start (span.start + span.width)

theorem Span.mem_bits {span : Span} {p : Nat} :
    p ∈ span.bits ↔ span.start ≤ p ∧ p < span.start + span.width :=
  Finset.mem_Ico

namespace Automaton

inductive Path (automaton : Automaton) : (node : Nat) → List Stop → (target : Nat) → Prop where
  | here (node : Nat) : Path automaton node [] node
  | step {node firstEdge value next target : Nat} {test : Span} {rest : List Stop}
      (read : automaton.nodes[node]? = some (.branch test firstEdge)) (within : value < test.fanout)
      (linked : automaton.edges[firstEdge + value]? = some next)
      (onward : Path automaton next rest target) :
      Path automaton node (⟨node, test, value⟩ :: rest) target

def Bears (automaton : Automaton) (node row : Nat) : Prop :=
  ∃ path target, automaton.Path node path target ∧ automaton.nodes[target]? = some (.leaf row)

def tested : List Stop → Finset Nat
  | [] => ∅
  | stop :: rest => stop.test.bits ∪ tested rest

theorem mem_tested {path : List Stop} {p : Nat} :
    p ∈ tested path ↔ ∃ stop ∈ path, p ∈ stop.test.bits := by
  induction path with
  | nil => simp [tested]
  | cons stop rest ih => simp [tested, ih]

end Automaton

namespace Tree

def untested (available : Word) : List Stop → Word
  | [] => available
  | stop :: rest => untested (available &&& ~~~stop.test.mask) rest

def kept (group : List Entry) : List Stop → List Entry
  | [] => group
  | stop :: rest => kept (selected stop.test stop.value group) rest

theorem ones_untested (available : Word) (path : List Stop) :
    (untested available path).ones = available.ones \ Automaton.tested path := by
  induction path generalizing available with
  | nil => simp [untested, Automaton.tested]
  | cons stop rest ih =>
    have spent := Word.ones_and_not_mask available stop.test
    simp [untested, Automaton.tested, ih, spent, Span.bits, sdiff_sdiff_left]

theorem mem_kept {group : List Entry} {path : List Stop} {entry : Entry} :
    entry ∈ kept group path ↔
      entry ∈ group ∧ ∀ stop ∈ path, (stop.test.read entry.pattern.value).toNat = stop.value := by
  induction path generalizing group with
  | nil => simp [kept]
  | cons stop rest ih => simp [kept, ih, mem_selected, and_assoc]

theorem kept_sublist (group : List Entry) (path : List Stop) : (kept group path).Sublist group := by
  induction path generalizing group with
  | nil => exact List.Sublist.refl group
  | cons stop rest ih => exact (ih _).trans List.filter_sublist

structure Spends (available : Word) (group : List Entry) (path : List Stop) : Prop where
  untested : Automaton.tested path ⊆ available.ones
  disjoint : path.Pairwise fun stop later => Disjoint stop.test.bits later.test.bits
  fixed : ∀ entry ∈ kept group path, ∀ p ∈ Automaton.tested path, entry.pattern.mask.getLsbD p = true
  short : path.length + (Tree.untested available path).ones.card ≤ available.ones.card

theorem Spends.cons {available : Word} {group : List Entry} {stop : Stop} {rest : List Stop}
    (fits : Fits available group stop.test)
    (later : Spends (available &&& ~~~stop.test.mask) (selected stop.test stop.value group) rest) :
    Spends available group (stop :: rest) := by
  have spent := Word.ones_and_not_mask available stop.test
  have outside : Disjoint stop.test.bits (Automaton.tested rest) := by
    have other := later.untested
    rw [spent] at other
    exact (Finset.disjoint_of_subset_left other Finset.sdiff_disjoint).symm
  have own (p : Nat) (member : p ∈ stop.test.bits) : ∃ offset < stop.test.width,
      stop.test.start + offset = p := by
    have bounds := Span.mem_bits.mp member
    exact ⟨p - stop.test.start, by omega, by omega⟩
  constructor
  case untested =>
    intro p member
    rcases Finset.mem_union.mp member with here | there
    · obtain ⟨offset, within, rfl⟩ := own p here
      exact Word.mem_ones.mpr (fits.untested offset within)
    · have kept := later.untested there
      rw [spent] at kept
      exact (Finset.mem_sdiff.mp kept).1
  case disjoint =>
    refine .cons (fun other member => ?_) later.disjoint
    refine Finset.disjoint_of_subset_right (fun p inside => ?_) outside
    exact Automaton.mem_tested.mpr ⟨other, member, inside⟩
  case fixed =>
    intro entry member p tested
    rcases Finset.mem_union.mp tested with here | there
    · obtain ⟨offset, within, rfl⟩ := own p here
      exact fits.fixed entry (mem_kept.mp member).1 offset within
    · exact later.fixed entry member p there
  case short =>
    have share := fits.card_ones
    have nonempty := fits.nonempty
    have rest := later.short
    simp only [Tree.untested, List.length_cons]
    omega

end Tree

namespace Automaton

variable {automaton : Automaton}

theorem Path.concat {node middle firstEdge value next : Nat} {path : List Stop} {test : Span}
    (leads : automaton.Path node path middle)
    (read : automaton.nodes[middle]? = some (.branch test firstEdge)) (within : value < test.fanout)
    (linked : automaton.edges[firstEdge + value]? = some next) :
    automaton.Path node (path ++ [⟨middle, test, value⟩]) next := by
  induction leads with
  | here node => exact .step read within linked (.here next)
  | step first inside edge onward ih => exact .step first inside edge (ih read)

theorem Stores.child {test : Span} {children : List Tree} {node : Nat}
    (stored : automaton.Stores (.branch test children) node) {value : Nat} {child : Tree}
    (present : children[value]? = some child) :
    ∃ firstEdge next, automaton.nodes[node]? = some (.branch test firstEdge) ∧
      value < test.fanout ∧ automaton.edges[firstEdge + value]? = some next ∧
      automaton.Stores child next := by
  cases stored with
  | branch read count linked below =>
    rename_i firstEdge
    have within := (List.getElem?_eq_some_iff.mp present).1
    have edge := Array.getElem?_eq_getElem
      (show firstEdge + value < automaton.edges.size by omega)
    exact ⟨firstEdge, _, read, count ▸ within, edge, below value child _ present edge⟩

theorem stores_of_path {node target : Nat} {path : List Stop}
    (leads : automaton.Path node path target) {tree : Tree} (stored : automaton.Stores tree node)
    {available : Word} {group : List Entry} (split : Tree.Splits available group tree) :
    ∃ part, automaton.Stores part target ∧
      Tree.Splits (Tree.untested available path) (Tree.kept group path) part ∧
      Tree.Spends available group path := by
  induction leads generalizing tree available group with
  | here node =>
    have none : Tree.Spends available group [] := by
      constructor <;> simp [tested, Tree.untested]
    exact ⟨tree, stored, split, none⟩
  | step read within linked onward ih =>
    cases stored with
    | invalid empty => simp [empty] at read
    | leaf other => simp [other] at read
    | branch same count inside below =>
      cases split with
      | branch several chosen full parts =>
        simp only [same, Option.some.injEq, Node.branch.injEq] at read
        obtain ⟨rfl, rfl⟩ := read
        have present := List.getElem?_eq_getElem (full.symm ▸ within)
        obtain ⟨part, found, divided, spends⟩ :=
          ih (below _ _ _ present linked) (parts _ _ present)
        exact ⟨part, found, divided, .cons (Tree.fits_of_widestRun? chosen) spends⟩

theorem Bears.step {node firstEdge value next row : Nat} {test : Span}
    (below : automaton.Bears next row)
    (read : automaton.nodes[node]? = some (.branch test firstEdge)) (within : value < test.fanout)
    (linked : automaton.edges[firstEdge + value]? = some next) : automaton.Bears node row := by
  obtain ⟨path, target, leads, leaf⟩ := below
  exact ⟨_, target, .step read within linked leads, leaf⟩

theorem bears_of_mem {tree : Tree} {available : Word} {group : List Entry}
    (split : Tree.Splits available group tree) {node : Nat} (stored : automaton.Stores tree node)
    {entry : Entry} (member : entry ∈ group) : automaton.Bears node entry.row := by
  induction split generalizing node with
  | invalid available => simp at member
  | leaf available only =>
    cases stored with
    | leaf read =>
      rw [List.mem_singleton.mp member]
      exact ⟨[], node, .here node, read⟩
  | @branch available group test children several chosen full parts ih =>
    have within : (test.read entry.pattern.value).toNat < children.length :=
      full ▸ test.toNat_read_lt _
    have present := List.getElem?_eq_getElem within
    obtain ⟨firstEdge, next, read, inside, linked, below⟩ := stored.child present
    have shown : entry ∈ Tree.selected test (test.read entry.pattern.value).toNat group :=
      Tree.mem_selected.mpr ⟨member, rfl⟩
    exact (ih _ _ present below shown).step read inside linked

theorem bears_iff {tree : Tree} {available : Word} {group : List Entry}
    (split : Tree.Splits available group tree) {node : Nat} (stored : automaton.Stores tree node)
    {row : Nat} : automaton.Bears node row ↔ ∃ entry ∈ group, entry.row = row := by
  constructor
  · rintro ⟨path, target, leads, leaf⟩
    obtain ⟨part, found, divided, _⟩ := stores_of_path leads stored split
    cases found with
    | invalid read => simp [read] at leaf
    | branch read => simp [read] at leaf
    | leaf read =>
      simp only [read, Option.some.injEq, Node.leaf.injEq] at leaf
      -- The part is a leaf because a single entry agrees with the path.
      generalize rest : Tree.kept group path = entries at divided
      cases divided with
      | leaf _ entry =>
        have member : entry ∈ Tree.kept group path := by simp [rest]
        exact ⟨entry, (Tree.mem_kept.mp member).1, leaf⟩
  · rintro ⟨entry, member, rfl⟩
    exact bears_of_mem split stored member

def nestedRows : List Pattern :=
  [⟨0xC0000001, 0x40000000⟩, ⟨0xC0000001, 0x40000001⟩, ⟨0xC0000001, 0xC0000000⟩]

def nestedAutomaton : Automaton where
  nodes := #[.invalid, .branch ⟨30, 2⟩ 0, .branch ⟨0, 1⟩ 4, .leaf 0, .leaf 1, .leaf 2]
  edges := #[0, 2, 0, 5, 3, 4]
  root := 1
  depth := 2

theorem build_nestedRows : build nestedRows = .ok nestedAutomaton := by cbv

end Automaton

end OpenRisc
