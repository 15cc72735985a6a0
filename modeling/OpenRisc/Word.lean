set_option autoImplicit false

namespace OpenRisc

/-- An instruction word; bit 0 is the least significant one. -/
abbrev Word := BitVec 32

namespace Word

def lowMask (width : Nat) : Word :=
  (BitVec.allOnes width).setWidth 32

-- Repeats bit `width - 1` through every higher bit.
def signExtend (value : Word) (width : Nat) : Word :=
  (value.setWidth width).signExtend 32

def ofBits (bit : Nat → Bool) : Word :=
  (BitVec.ofBoolListLE ((List.range 32).map bit)).cast (by simp)

@[simp] theorem getLsbD_lowMask (width p : Nat) :
    (lowMask width).getLsbD p = (decide (p < 32) && decide (p < width)) := by
  simp [lowMask]

@[simp] theorem getElem_lowMask (width p : Nat) (inside : p < 32) :
    (lowMask width)[p] = decide (p < width) := by
  rw [← BitVec.getLsbD_eq_getElem, getLsbD_lowMask]
  simp [inside]

@[simp] theorem getLsbD_ofBits (bit : Nat → Bool) (p : Nat) :
    (ofBits bit).getLsbD p = (decide (p < 32) && bit p) := by
  by_cases inside : p < 32 <;>
    simp [ofBits, -BitVec.getLsbD_eq_getElem, BitVec.getLsbD_ofBoolListLE,
      List.getD_eq_getElem?_getD, inside]

@[simp] theorem getElem_ofBits (bit : Nat → Bool) (p : Nat) (inside : p < 32) :
    (ofBits bit)[p] = bit p := by
  rw [← BitVec.getLsbD_eq_getElem, getLsbD_ofBits]
  simp [inside]

end Word

end OpenRisc
