import OpenRisc.Operand

set_option autoImplicit false

namespace OpenRisc

def Program.maxOperands : Nat := 5

/-- The operands of one instruction word, in slots of which the first `size` are taken. -/
structure Operands where
  slots : Vector Operand Program.maxOperands := Vector.replicate _ {}
  size : Nat := 0
  bounded : size ≤ Program.maxOperands := by decide
  deriving DecidableEq, Repr

namespace Operands

open Program (maxOperands)

def toList (operands : Operands) : List Operand :=
  operands.slots.toList.take operands.size

-- An operand that finds no free slot is dropped.
def push (operands : Operands) (operand : Operand) : Operands :=
  if free : operands.size < maxOperands then
    { slots := operands.slots.set operands.size operand
      size := operands.size + 1
      bounded := free }
  else operands

@[simp] theorem toList_empty : ({} : Operands).toList = [] := rfl

@[simp] theorem length_toList (operands : Operands) : operands.toList.length = operands.size := by
  simp [toList, operands.bounded]

theorem size_push {operands : Operands} (free : operands.size < maxOperands) (operand : Operand) :
    (operands.push operand).size = operands.size + 1 := by
  simp [push, free]

theorem toList_push (operands : Operands) (operand : Operand) :
    (operands.push operand).toList = (operands.toList ++ [operand]).take maxOperands := by
  by_cases free : operands.size < maxOperands
  · have room : (operands.toList ++ [operand]).length ≤ maxOperands := by
      simpa using Nat.succ_le_of_lt free
    rw [List.take_of_length_le room]
    simp only [toList, push, free, reduceDIte, Vector.toList_set, List.take_add_one, List.take_set,
      List.length_set, Vector.length_toList, getElem?_pos, List.getElem_set_self,
      Option.toList_some, List.append_cancel_right_eq]
    exact List.set_eq_of_length_le (List.length_take_le _ _)
  · have full : maxOperands ≤ operands.toList.length := by simpa using free
    rw [List.take_append_of_le_length full, List.take_of_length_le]
    · simp [push, free]
    · simpa using operands.bounded

theorem take_append_take (before after : List Operand) (room : Nat) :
    (before.take room ++ after).take room = (before ++ after).take room := by
  rcases Nat.le_total before.length room with few | many
  · rw [List.take_of_length_le few]
  · have full : room ≤ (before.take room).length := by simp [many]
    rw [List.take_append_of_le_length full, List.take_append_of_le_length many, List.take_take,
      Nat.min_self]

theorem toList_foldl_push (operands : Operands) (pushed : List Operand) :
    (pushed.foldl push operands).toList = (operands.toList ++ pushed).take maxOperands := by
  induction pushed generalizing operands with
  | nil =>
    rw [List.foldl_nil, List.append_nil, List.take_of_length_le]
    simpa using operands.bounded
  | cons operand rest ih =>
    rw [List.foldl_cons, ih, toList_push, take_append_take, List.append_assoc]
    rfl

end Operands

end OpenRisc
