import OpenRisc.Word

set_option autoImplicit false

namespace OpenRisc

/-- The fixed bits of an encoding: `mask` says which bits are fixed, `value` holds them. -/
structure Pattern where
  mask : Word
  value : Word
  deriving DecidableEq, Repr

namespace Pattern

def accepts (pattern : Pattern) (raw : Word) : Bool :=
  raw &&& pattern.mask == pattern.value

def overlaps (left right : Pattern) : Bool :=
  (left.value ^^^ right.value) &&& left.mask &&& right.mask == 0

theorem accepts_iff (pattern : Pattern) (raw : Word) :
    pattern.accepts raw = true ↔ raw &&& pattern.mask = pattern.value :=
  beq_iff_eq

theorem overlaps_comm (left right : Pattern) : left.overlaps right = right.overlaps left := by
  simp only [overlaps]
  rw [BitVec.xor_comm, BitVec.and_assoc, BitVec.and_comm left.mask, ← BitVec.and_assoc]

end Pattern

end OpenRisc
