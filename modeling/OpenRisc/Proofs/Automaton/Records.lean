import OpenRisc.Proofs.Automaton.Flattening
import OpenRisc.Proofs.Automaton.Recovery

set_option autoImplicit false

namespace OpenRisc

def Node.test? : Node → Option Span
  | .branch test _ => some test
  | _ => none

namespace Automaton

variable {automaton : Automaton}

def tests (automaton : Automaton) : List Span :=
  automaton.nodes.toList.filterMap Node.test?

def Occupies (automaton : Automaton) (node position : Nat) : Prop :=
  ∃ test firstEdge, automaton.nodes[node]? = some (.branch test firstEdge) ∧
    automaton.recordOffset node ≤ position ∧
    position < automaton.recordOffset node + (2 + test.fanout)

def IsEntry (automaton : Automaton) (position : Nat) : Prop :=
  position = 0 ∨
    ∃ node, automaton.Occupies node position ∧ automaton.recordOffset node + 2 ≤ position

inductive Refers (automaton : Automaton) : (position target : Nat) → Prop where
  | root : Refers automaton 0 automaton.root
  | child {node firstEdge value target : Nat} {test : Span}
      (read : automaton.nodes[node]? = some (.branch test firstEdge)) (within : value < test.fanout)
      (linked : automaton.edges[firstEdge + value]? = some target) :
      Refers automaton (automaton.recordOffset node + 2 + value) target

theorem sum_recordSize_eq_tests (nodes : List Node) :
    (nodes.map Node.recordSize).sum =
      ((nodes.filterMap Node.test?).map fun test => 2 + 2 ^ test.width).sum := by
  induction nodes with
  | nil => rfl
  | cons node rest ih =>
    cases node with
    | invalid => simpa [List.filterMap_cons, Node.recordSize, Node.test?] using ih
    | leaf row => simpa [List.filterMap_cons, Node.recordSize, Node.test?] using ih
    | branch test firstEdge =>
      simp [Node.recordSize, Node.test?, Span.fanout, Nat.one_shiftLeft, ih]

theorem recordOffset_mono (automaton : Automaton) : Monotone automaton.recordOffset := by
  refine monotone_nat_of_le_succ fun node => ?_
  rw [recordOffset_eq, recordOffset_eq, List.take_add_one, List.map_append, List.sum_append]
  omega

theorem recordOffset_add_le {node later firstEdge : Nat} {test : Span}
    (read : automaton.nodes[node]? = some (.branch test firstEdge)) (before : node < later) :
    automaton.recordOffset node + (2 + test.fanout) ≤ automaton.recordOffset later := by
  have next := automaton.recordOffset_mono (Nat.succ_le_of_lt before)
  rwa [Nat.succ_eq_add_one, recordOffset_succ read] at next

theorem Occupies.unique {node other position : Nat} (occupies : automaton.Occupies node position)
    (occupies' : automaton.Occupies other position) : node = other := by
  obtain ⟨test, firstEdge, read, above, below⟩ := occupies
  obtain ⟨test', firstEdge', read', above', below'⟩ := occupies'
  rcases Nat.lt_trichotomy node other with before | same | behind
  · have apart := recordOffset_add_le read before
    omega
  · exact same
  · have apart := recordOffset_add_le read' behind
    omega

theorem recordOffset_size (compact : automaton.Compact) :
    automaton.recordOffset automaton.nodes.size = automaton.serialize.size := by
  rw [size_serialize compact.sound, recordOffset_eq, ← Array.length_toList, List.take_length]

theorem exists_occupies {position count : Nat} (behind : 0 < position)
    (inside : count ≤ automaton.nodes.size) (below : position < automaton.recordOffset count) :
    ∃ node, automaton.Occupies node position := by
  induction count with
  | zero =>
    have first : automaton.recordOffset 0 = 1 := by simp [recordOffset]
    omega
  | succ count ih =>
    have read := Array.getElem?_eq_getElem (show count < automaton.nodes.size by omega)
    rw [recordOffset_succ read] at below
    by_cases earlier : position < automaton.recordOffset count
    · exact ih (by omega) earlier
    · -- Only the record of a branch can reach beyond its own offset.
      generalize content_eq : automaton.nodes[count] = content at read below
      cases content with
      | branch test firstEdge =>
        exact ⟨count, test, firstEdge, read, by omega, below⟩
      | invalid => simp only [Node.recordSize] at below; omega
      | leaf row => simp only [Node.recordSize] at below; omega

theorem existsUnique_of_countP {α : Type} {counted : α → Bool} {items : List α}
    (once : items.countP counted = 1) :
    ∃! i : Nat, ∃ item, items[i]? = some item ∧ counted item = true := by
  induction items with
  | nil => simp at once
  | cons head rest ih =>
    rw [List.countP_cons] at once
    by_cases here : counted head = true
    · rw [if_pos here] at once
      have none_later : ∀ item ∈ rest, ¬ counted item = true :=
        List.countP_eq_zero.mp (by omega)
      refine ⟨0, ⟨head, rfl, here⟩, ?_⟩
      rintro (_ | i) ⟨item, present, held⟩
      · rfl
      · exact absurd held (none_later item (List.mem_of_getElem? present))
    · rw [if_neg here] at once
      obtain ⟨i, ⟨item, present, held⟩, only⟩ := ih once
      refine ⟨i + 1, ⟨item, present, held⟩, ?_⟩
      rintro (_ | j) ⟨other, there, held'⟩
      · rw [List.getElem?_cons_zero, Option.some.injEq] at there
        exact absurd (there ▸ held') here
      · rw [only j ⟨other, there, held'⟩]

theorem isEntry_of_refers {position target : Nat} (refers : automaton.Refers position target) :
    automaton.IsEntry position := by
  cases refers with
  | root => exact .inl rfl
  | @child node firstEdge value target test read within linked =>
    exact .inr ⟨node, ⟨test, firstEdge, read, by omega, by omega⟩, by omega⟩

theorem serialize_of_refers (compact : automaton.Compact) {position target : Nat}
    (refers : automaton.Refers position target) :
    automaton.serialize[position]? = some (automaton.entry target) := by
  cases refers with
  | root => exact serialize_zero
  | child read within linked => exact (serialize_branch compact read).2.2 _ _ within linked

theorem Occupies.recordOffset_le {node position : Nat}
    (occupies : automaton.Occupies node position) : automaton.recordOffset node ≤ position := by
  obtain ⟨_, _, _, above, _⟩ := occupies
  exact above

section

variable {rows : Nat}

theorem ProperTree.exists_refers (proper : automaton.ProperTree rows) {position : Nat}
    (entry : automaton.IsEntry position) : ∃ target, automaton.Refers position target := by
  rcases entry with rfl | ⟨node, ⟨test, firstEdge, read, _, below⟩, behind⟩
  · exact ⟨_, .root⟩
  · have within : position - (automaton.recordOffset node + 2) < test.fanout := by omega
    obtain ⟨child, linked, _⟩ := proper.downward _ _ _ read _ within
    have refers := Refers.child read within linked
    rw [Nat.add_sub_cancel' behind] at refers
    exact ⟨child, refers⟩

theorem one_le_recordOffset (automaton : Automaton) (node : Nat) :
    1 ≤ automaton.recordOffset node := by
  rw [recordOffset_eq]
  omega

theorem ProperTree.refers_downward (proper : automaton.ProperTree rows) {position target : Nat}
    (refers : automaton.Refers position target) :
    target = 0 ∨ target < automaton.nodes.size ∧
      ∀ holder, automaton.Occupies holder position → holder < target := by
  cases refers with
  | root =>
    obtain ⟨_, inside, _⟩ := proper.rooted
    refine .inr ⟨inside, fun holder occupies => ?_⟩
    have first := automaton.one_le_recordOffset holder
    have above := occupies.recordOffset_le
    omega
  | @child node firstEdge value target test read within linked =>
    obtain ⟨child, found, downward⟩ := proper.downward _ _ _ read _ within
    rw [linked, Option.some.injEq] at found
    subst found
    by_cases shared : target = 0
    · exact .inl shared
    · obtain ⟨behind, inside⟩ := downward shared
      refine .inr ⟨inside, fun holder occupies => ?_⟩
      have own : automaton.Occupies node (automaton.recordOffset node + 2 + value) :=
        ⟨test, firstEdge, read, by omega, by omega⟩
      rwa [occupies.unique own]

theorem ProperTree.recordOffset_lt_of_refers (proper : automaton.ProperTree rows)
    {position target holder : Nat} (refers : automaton.Refers position target) (named : target ≠ 0)
    (occupies : automaton.Occupies holder position) :
    automaton.recordOffset holder < automaton.recordOffset target := by
  obtain ⟨_, downward⟩ := (proper.refers_downward refers).resolve_left named
  have above := downward holder occupies
  obtain ⟨_, _, held, _⟩ := occupies
  have behind := recordOffset_add_le held above
  omega

theorem ProperTree.existsUnique_refers (proper : automaton.ProperTree rows) {target : Nat}
    (named : target ≠ 0) (inside : target < automaton.nodes.size) :
    ∃! position, automaton.Refers position target := by
  by_cases first : target = automaton.root
  · subst first
    refine ⟨0, .root, fun position refers => ?_⟩
    cases refers with
    | root => rfl
    | child read within linked =>
      have member := List.mem_of_getElem? (Array.getElem?_toList ▸ linked)
      exact absurd member (List.count_eq_zero.mp proper.rooted.2.2)
  · obtain ⟨edge, ⟨_, leads, same⟩, onlyEdge⟩ :=
      existsUnique_of_countP (proper.hung target inside named first)
    rw [beq_iff_eq] at same
    subst same
    rw [Array.getElem?_toList] at leads
    have within := (Array.getElem?_eq_some_iff.mp leads).1
    obtain ⟨node, ⟨content, read, owns⟩, onlyNode⟩ :=
      existsUnique_of_countP (proper.tiled edge within)
    obtain ⟨test, firstEdge, value, rfl, inBlock, rfl⟩ := Node.owns_iff.mp owns
    rw [Array.getElem?_toList] at read
    refine ⟨_, .child read inBlock leads, fun position refers => ?_⟩
    cases refers with
    | root => contradiction
    | @child other otherEdge otherValue _ otherTest read' inBlock' leads' =>
      -- Another reference would use the same edge, which belongs to one branch only.
      have sameEdge : otherEdge + otherValue = firstEdge + value :=
        onlyEdge _ ⟨_, Array.getElem?_toList ▸ leads', beq_self_eq_true _⟩
      have sameNode : other = node :=
        onlyNode other ⟨_, Array.getElem?_toList ▸ read',
          Node.owns_iff.mpr ⟨_, _, _, rfl, inBlock', sameEdge⟩⟩
      subst sameNode
      rw [read, Option.some.injEq, Node.branch.injEq] at read'
      omega

end

theorem leafMarker_le {word : Word} (marked : word &&& leafMarker ≠ 0) :
    leafMarker.toNat ≤ word.toNat := by
  by_contra below
  exact marked (and_leafMarker (Nat.lt_of_not_le below))

theorem recordOffset_lt_leafMarker (compact : automaton.Compact) (node : Nat) :
    automaton.recordOffset node < leafMarker.toNat :=
  recordOffset_lt compact node

theorem entry_cases (compact : automaton.Compact) {target : Nat} {content : Node}
    (read : automaton.nodes[target]? = some content) :
    content = .invalid ∧ automaton.entry target = invalidEntry ∨
    (∃ row, content = .leaf row ∧ automaton.entry target = leafMarker ||| BitVec.ofNat 32 row ∧
      leafMarker.toNat ≤ (automaton.entry target).toNat) ∨
    ∃ test firstEdge, content = .branch test firstEdge ∧
      (automaton.entry target).toNat = automaton.recordOffset target := by
  cases content with
  | invalid => exact .inl ⟨rfl, by simp only [entry, read]⟩
  | leaf row =>
    obtain ⟨_, marked, _⟩ := entry_leaf compact read
    exact .inr (.inl ⟨row, rfl, by simp only [entry, read], leafMarker_le marked⟩)
  | branch test firstEdge =>
    exact .inr (.inr ⟨test, firstEdge, rfl, (entry_branch compact read).2⟩)

section

variable {rows : Nat}

theorem ProperTree.exists_word (compact : automaton.Compact) (proper : automaton.ProperTree rows)
    {position : Nat} (entry : automaton.IsEntry position) :
    ∃ target content, automaton.Refers position target ∧ automaton.nodes[target]? = some content ∧
      automaton.serialize[position]? = some (automaton.entry target) := by
  obtain ⟨target, refers⟩ := proper.exists_refers entry
  have word := serialize_of_refers compact refers
  rcases proper.refers_downward refers with shared | ⟨inside, _⟩
  · exact ⟨target, .invalid, refers, (proper.invalid target).mpr shared, word⟩
  · exact ⟨target, _, refers, Array.getElem?_eq_getElem inside, word⟩

theorem ProperTree.row_lt (proper : automaton.ProperTree rows) {node row : Nat}
    (read : automaton.nodes[node]? = some (.leaf row)) : row < rows := by
  have count := proper.leaf row
  have member := List.count_pos_iff.mpr (List.mem_of_getElem? (Array.getElem?_toList ▸ read))
  by_contra unknown
  rw [if_neg unknown] at count
  omega

theorem ProperTree.word_cases (compact : automaton.Compact) (proper : automaton.ProperTree rows)
    {position : Nat} {word : Word} (entry : automaton.IsEntry position)
    (found : automaton.serialize[position]? = some word) :
    word = invalidEntry ∨ (∃ row < rows, word = leafMarker ||| BitVec.ofNat 32 row) ∨
      ∃ (target firstEdge : Nat) (test : Span), automaton.Refers position target ∧
        automaton.nodes[target]? = some (.branch test firstEdge) ∧
          word.toNat = automaton.recordOffset target := by
  obtain ⟨target, content, refers, read, stands⟩ := proper.exists_word compact entry
  rw [found, Option.some.injEq] at stands
  subst stands
  obtain ⟨_, invalid⟩ | ⟨row, rfl, marked, _⟩ | ⟨test, firstEdge, rfl, offset⟩ :=
    entry_cases compact read
  · exact .inl invalid
  · exact .inr (.inl ⟨row, proper.row_lt read, marked⟩)
  · exact .inr (.inr ⟨target, firstEdge, test, refers, read, offset⟩)

theorem ProperTree.existsUnique_entry (compact : automaton.Compact)
    (proper : automaton.ProperTree rows) {tells : Word → Prop} {node : Nat} (named : node ≠ 0)
    (inside : node < automaton.nodes.size) (own : tells (automaton.entry node))
    (alone : ∀ (other : Nat) (content : Node), automaton.nodes[other]? = some content →
      tells (automaton.entry other) → other = node) :
    ∃! position, automaton.IsEntry position ∧
      ∃ word, automaton.serialize[position]? = some word ∧ tells word := by
  obtain ⟨position, refers, only⟩ := proper.existsUnique_refers named inside
  refine ⟨position, ⟨isEntry_of_refers refers, _, serialize_of_refers compact refers, own⟩, ?_⟩
  rintro other ⟨entry, word, found, said⟩
  obtain ⟨target, content, refers', read, stands⟩ := proper.exists_word compact entry
  rw [stands, Option.some.injEq] at found
  subst found
  have same := alone target content read said
  exact only other (same ▸ refers')

/-- The image of an automaton over `rows` rows, as a whole. -/
structure Relocatable (rows : Nat) (automaton : Automaton) : Prop where
  written : automaton.flatten = automaton.serialize
  size : automaton.serialize.size = 1 + (automaton.tests.map fun test => 2 + 2 ^ test.width).sum
  root : automaton.serialize[0]? = some (automaton.entry automaton.root)
  record : ∀ (node firstEdge : Nat) (test : Span),
    automaton.nodes[node]? = some (.branch test firstEdge) →
      automaton.serialize[automaton.recordOffset node]? = some (BitVec.ofNat 32 test.start) ∧
      automaton.serialize[automaton.recordOffset node + 1]? = some (Word.lowMask test.width) ∧
      ∀ value < test.fanout, ∃ child, automaton.edges[firstEdge + value]? = some child ∧
        automaton.serialize[automaton.recordOffset node + 2 + value]? =
          some (automaton.entry child)
  ordered : ∀ (node firstEdge later : Nat) (test : Span),
    automaton.nodes[node]? = some (.branch test firstEdge) → node < later →
      automaton.recordOffset node + (2 + test.fanout) ≤ automaton.recordOffset later
  tiled : ∀ position, 0 < position → position < automaton.serialize.size →
    ∃! node, automaton.Occupies node position
  pointer : ∀ (position : Nat) (word : Word), automaton.IsEntry position →
    automaton.serialize[position]? = some word → word.toNat < leafMarker.toNat →
      (∃ (target firstEdge : Nat) (test : Span),
        automaton.nodes[target]? = some (.branch test firstEdge) ∧
          word.toNat = automaton.recordOffset target) ∧
      ∀ holder, automaton.Occupies holder position → automaton.recordOffset holder < word.toNat
  targeted : ∀ (node firstEdge : Nat) (test : Span),
    automaton.nodes[node]? = some (.branch test firstEdge) →
      ∃! position, automaton.IsEntry position ∧
        ∃ word, automaton.serialize[position]? = some word ∧
          word.toNat = automaton.recordOffset node
  leaf : ∀ row < rows, ∃! position, automaton.IsEntry position ∧
    ∃ word, automaton.serialize[position]? = some word ∧
      word = leafMarker ||| BitVec.ofNat 32 row
  known : ∀ (position : Nat) (word : Word), automaton.IsEntry position →
    automaton.serialize[position]? = some word → leafMarker.toNat ≤ word.toNat →
      word = invalidEntry ∨ ∃ row < rows, word = leafMarker ||| BitVec.ofNat 32 row

end

theorem ProperTree.node_ne_zero {rows : Nat} (proper : automaton.ProperTree rows) {node : Nat}
    {content : Node} (read : automaton.nodes[node]? = some content) (valid : content ≠ .invalid) :
    node ≠ 0 := by
  intro shared
  rw [(proper.invalid node).mpr shared, Option.some.injEq] at read
  exact valid read.symm

theorem existsUnique_pointer {rows : Nat} (compact : automaton.Compact)
    (proper : automaton.ProperTree rows) {node firstEdge : Nat} {test : Span}
    (read : automaton.nodes[node]? = some (.branch test firstEdge)) :
    ∃! position, automaton.IsEntry position ∧
      ∃ word, automaton.serialize[position]? = some word ∧
        word.toNat = automaton.recordOffset node := by
  have inside := (Array.getElem?_eq_some_iff.mp read).1
  refine proper.existsUnique_entry compact (proper.node_ne_zero read (by simp)) inside
    (entry_branch compact read).2 fun other content read' tells => ?_
  have low := recordOffset_lt_leafMarker compact node
  obtain ⟨_, invalid⟩ | ⟨_, _, _, high⟩ | ⟨test', firstEdge', rfl, offset⟩ :=
    entry_cases compact read'
  · rw [invalid] at tells
    exact absurd low (by rw [← tells]; decide)
  · omega
  · have own : automaton.Occupies node (automaton.recordOffset node) :=
      ⟨test, firstEdge, read, Nat.le_refl _, by omega⟩
    have same : automaton.Occupies other (automaton.recordOffset node) :=
      ⟨test', firstEdge', read', by omega, by omega⟩
    exact same.unique own

theorem existsUnique_leaf {rows : Nat} (compact : automaton.Compact)
    (proper : automaton.ProperTree rows) {row : Nat} (known : row < rows) :
    ∃! position, automaton.IsEntry position ∧
      ∃ word, automaton.serialize[position]? = some word ∧
        word = leafMarker ||| BitVec.ofNat 32 row := by
  have once := proper.leaf row
  rw [if_pos known] at once
  obtain ⟨node, ⟨content, read, same⟩, only⟩ := existsUnique_of_countP once
  rw [beq_iff_eq] at same
  subst same
  rw [Array.getElem?_toList] at read
  have inside := (Array.getElem?_eq_some_iff.mp read).1
  have word : automaton.entry node = leafMarker ||| BitVec.ofNat 32 row := by
    simp only [entry, read]
  obtain ⟨valid, marked, content⟩ := entry_leaf compact read
  refine proper.existsUnique_entry compact (proper.node_ne_zero read (by simp)) inside word
    fun other content' read' tells => ?_
  have shared : automaton.entry other = automaton.entry node := tells.trans word.symm
  obtain ⟨_, invalid⟩ | ⟨row', rfl, _⟩ | ⟨_, _, rfl, offset⟩ := entry_cases compact read'
  · exact absurd (shared.symm.trans invalid) valid
  · have content' := (entry_leaf compact read').2.2
    rw [shared, content] at content'
    subst content'
    exact only other ⟨_, Array.getElem?_toList ▸ read', beq_self_eq_true _⟩
  · have low := recordOffset_lt_leafMarker compact other
    have high := leafMarker_le marked
    rw [← shared] at high
    omega

theorem ProperTree.relocatable {rows : Nat} (proper : automaton.ProperTree rows)
    (compact : automaton.Compact) (written : automaton.flatten = automaton.serialize) :
    automaton.Relocatable rows where
  written := written
  size := by
    rw [size_serialize compact.sound, sum_recordSize_eq_tests, tests]
  root := serialize_zero
  record := by
    intro node firstEdge test read
    obtain ⟨start, mask, entries⟩ := serialize_branch compact read
    refine ⟨start, mask, fun value within => ?_⟩
    obtain ⟨child, linked, _⟩ := proper.downward _ _ _ read value within
    exact ⟨child, linked, entries value child within linked⟩
  ordered := fun node firstEdge later test read before => recordOffset_add_le read before
  tiled := by
    intro position behind inside
    rw [← recordOffset_size compact] at inside
    obtain ⟨node, occupies⟩ := exists_occupies behind (Nat.le_refl _) inside
    exact ⟨node, occupies, fun other occupies' => occupies'.unique occupies⟩
  pointer := by
    intro position word entry found low
    obtain rfl | ⟨row, _, rfl⟩ | ⟨target, firstEdge, test, refers, read, offset⟩ :=
      proper.word_cases compact entry found
    · exact absurd low (by decide)
    · have high := leafMarker_le (marked_and_leafMarker (BitVec.ofNat 32 row))
      omega
    · refine ⟨⟨target, firstEdge, test, read, offset⟩, fun holder occupies => ?_⟩
      have named := proper.node_ne_zero read (by simp)
      have behind := proper.recordOffset_lt_of_refers refers named occupies
      omega
  targeted := fun node firstEdge test read => existsUnique_pointer compact proper read
  leaf := fun row known => existsUnique_leaf compact proper known
  known := by
    intro position word entry found high
    obtain invalid | row | ⟨target, _, _, _, _, offset⟩ := proper.word_cases compact entry found
    · exact .inl invalid
    · exact .inr row
    · have low := recordOffset_lt_leafMarker compact target
      omega

/-- The image of a built automaton can be moved, and no other built automaton has it. -/
theorem relocatable_of_build {patterns : List Pattern} (few : patterns.length ≤ 2000000)
    (done : build patterns = .ok automaton) :
    automaton.Relocatable patterns.length ∧
      ∀ (others : List Pattern) (other : Automaton), others.length ≤ 2000000 →
        build others = .ok other → other.serialize = automaton.serialize →
          other.nodes = automaton.nodes ∧ other.edges = automaton.edges ∧
            other.root = automaton.root ∧ other.depth = automaton.depth := by
  constructor
  · exact (proper_of_build done).relocatable (compact_of_build few done)
      (flatten_eq_serialize few done)
  · intro others other few' done' same
    obtain rfl := eq_of_serialize_eq few' few done' done same
    exact ⟨rfl, rfl, rfl, rfl⟩

theorem relocatable_nestedRows :
    nestedRows.length ≤ 2000000 ∧ build nestedRows = .ok nestedAutomaton ∧
      nestedAutomaton.serialize =
        #[1, 30, 3, 0xFFFFFFFF, 7, 0xFFFFFFFF, 0x80000002, 0, 1, 0x80000000, 0x80000001] ∧
      nestedAutomaton.Relocatable 3 :=
  ⟨by decide, build_nestedRows, by decide,
    (relocatable_of_build (by decide) build_nestedRows).1⟩

end Automaton

end OpenRisc
