import OpenRisc.Proofs.Automaton.Arena
import OpenRisc.Proofs.Table.Compilation

set_option autoImplicit false

namespace OpenRisc

def Opcode.accepts (opcode : Opcode) (raw : Word) : Bool :=
  match Template.parse opcode.template with
  | .ok template => template.pattern.accepts raw
  | .error _ => false

namespace Table

def search? (opcodes : List Opcode) (raw : Word) : Option Nat :=
  opcodes.findIdx? fun opcode => opcode.accepts raw

/-- The template of opcode `index` fixes only bits that `raw` has. -/
def Encodes (opcodes : List Opcode) (raw : Word) (index : Nat) : Prop :=
  ∃ opcode template, opcodes[index]? = some opcode ∧
    Template.parse opcode.template = .ok template ∧
    raw &&& template.pattern.mask = template.pattern.value

theorem encodes_iff_accepts {opcodes : List Opcode} {raw : Word} {index : Nat} :
    Encodes opcodes raw index ↔ ∃ opcode, opcodes[index]? = some opcode ∧ opcode.accepts raw := by
  constructor
  · rintro ⟨opcode, template, present, parsed, same⟩
    exact ⟨opcode, present, by simp [Opcode.accepts, parsed, Pattern.accepts, same]⟩
  · rintro ⟨opcode, present, accepted⟩
    rw [Opcode.accepts] at accepted
    split at accepted
    next template parsed =>
      exact ⟨opcode, template, present, parsed, (template.pattern.accepts_iff raw).mp accepted⟩
    next => simp at accepted

theorem encodes_of_search? {opcodes : List Opcode} {raw : Word} {index : Nat}
    (found : search? opcodes raw = some index) : Encodes opcodes raw index := by
  obtain ⟨inside, accepted, _⟩ := List.findIdx?_eq_some_iff_getElem.mp found
  exact encodes_iff_accepts.mpr ⟨_, List.getElem?_eq_getElem inside, accepted⟩

theorem exists_search? {opcodes : List Opcode} {raw : Word} {index : Nat}
    (encoded : Encodes opcodes raw index) : ∃ other, search? opcodes raw = some other := by
  obtain ⟨opcode, present, accepted⟩ := encodes_iff_accepts.mp encoded
  cases found : search? opcodes raw with
  | some other => exact ⟨other, rfl⟩
  | none =>
    have refused := List.findIdx?_eq_none_iff.mp found opcode (List.mem_of_getElem? present)
    simp [refused] at accepted

namespace Compiled

variable {opcodes : List Opcode} {templates : List Template} {table : Table}

theorem walk_of_encodes (compiled : Compiled opcodes templates table) {raw : Word} {index : Nat}
    (encoded : Encodes opcodes raw index) : table.automaton.walk raw = some index := by
  obtain ⟨opcode, template, present, parsed, same⟩ := encoded
  obtain ⟨other, found, also⟩ := compiled.template present
  rw [parsed, Except.ok.injEq] at also
  subst also
  refine (Automaton.finds_of_build compiled.built raw).found index template.pattern ?_ ?_
  · rw [List.getElem?_map, found, Option.map_some]
  · exact (template.pattern.accepts_iff raw).mpr same

theorem encodes_unique (compiled : Compiled opcodes templates table) {raw : Word}
    {first second : Nat} (one : Encodes opcodes raw first) (other : Encodes opcodes raw second) :
    first = second := by
  have same := (compiled.walk_of_encodes one).symm.trans (compiled.walk_of_encodes other)
  exact Option.some.inj same

theorem decode_eq_some (compiled : Compiled opcodes templates table) (raw : Word) (index : Nat) :
    table.decode raw = some index ↔ Encodes opcodes raw index := by
  constructor
  · intro decoded
    simp only [decode, Option.bind_eq_bind, Option.bind_eq_some_iff] at decoded
    obtain ⟨other, walked, row, stored, checked⟩ := decoded
    have inside := (Automaton.finds_of_build compiled.built raw).known other walked
    rw [List.length_map, compiled.length_templates] at inside
    obtain ⟨template, program, _, parsed, _, same⟩ :=
      compiled.row (List.getElem?_eq_getElem inside)
    rw [stored, Option.some.injEq] at same
    subst same
    split at checked
    next accepted =>
      rw [Option.some.injEq] at checked
      subst checked
      exact ⟨_, template, List.getElem?_eq_getElem inside, parsed,
        (template.pattern.accepts_iff raw).mp accepted⟩
    next => simp at checked
  · intro encoded
    have walked := compiled.walk_of_encodes encoded
    obtain ⟨opcode, template, present, parsed, same⟩ := encoded
    obtain ⟨other, program, _, also, _, stored⟩ := compiled.row present
    rw [parsed, Except.ok.injEq] at also
    subst also
    simp [decode, walked, stored, Pattern.accepts, same]

theorem decode_eq_search? (compiled : Compiled opcodes templates table) (raw : Word) :
    table.decode raw = search? opcodes raw := by
  apply Option.ext
  intro index
  rw [compiled.decode_eq_some]
  constructor
  · intro encoded
    obtain ⟨other, found⟩ := exists_search? encoded
    rw [found, compiled.encodes_unique encoded (encodes_of_search? found)]
  · exact encodes_of_search?

end Compiled

/-- A compiled table decodes every word as a search through its opcodes would. -/
theorem decode_iff_encodes {opcodes : List Opcode} {table : Table}
    (done : compile opcodes = .ok table) (raw : Word) :
    (∀ index, table.decode raw = some index ↔ Encodes opcodes raw index) ∧
      table.decode raw = search? opcodes raw ∧
      (∀ first second, Encodes opcodes raw first → Encodes opcodes raw second → first = second) ∧
      (table.decode raw = none ↔ ∀ index, ¬ Encodes opcodes raw index) ∧
      (∀ index, Encodes opcodes raw index → table.automaton.walk raw = some index) ∧
      (table.automaton.trace raw).arrival ≠ .lost := by
  obtain ⟨templates, compiled⟩ := compiled_of_compile done
  refine ⟨compiled.decode_eq_some raw, compiled.decode_eq_search? raw,
    fun _ _ => compiled.encodes_unique, ?_, fun _ => compiled.walk_of_encodes,
    (Automaton.finds_of_build compiled.built raw).arrives⟩
  rw [Option.eq_none_iff_forall_ne_some]
  exact forall_congr' fun index => not_congr (compiled.decode_eq_some raw index)

def additions : List Opcode :=
  [{ name := "l.addi", signature := "rD,rA,I"
     template := "10 0x7 DDDDD AAAAA IIII IIII IIII IIII" },
    { name := "l.add", signature := "rD,rA,rB"
      template := "11 0x8 DDDDD AAAAA BBBB B--- ---- 0x0" }]

theorem decode_additions :
    ∃ table, compile additions = .ok table ∧ table.decode 0x9C640010 = some 0 ∧
      table.decode 0xE0642800 = some 1 ∧ table.decode 0xE0642803 = none := by
  obtain ⟨table, done⟩ := Traversal.exists_of_isOk
    (show (compile additions).isOk = true by decide +kernel)
  have first : search? additions 0x9C640010 = some 0 := by decide +kernel
  have second : search? additions 0xE0642800 = some 1 := by decide +kernel
  have neither : search? additions 0xE0642803 = none := by decide +kernel
  exact ⟨table, done, (decode_iff_encodes done _).2.1.trans first,
    (decode_iff_encodes done _).2.1.trans second, (decode_iff_encodes done _).2.1.trans neither⟩

end Table

end OpenRisc
