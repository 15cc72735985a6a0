import OpenRisc.Word

set_option autoImplicit false

namespace OpenRisc

inductive Category where
  | unknown
  | exception
  | arith
  | shift
  | compare
  | branch
  | jump
  | load
  | store
  | movImm
  | move
  | extend
  | nop
  | mac
  | float
  deriving DecidableEq, Repr

namespace Category

def all : List Category :=
  [unknown, exception, arith, shift, compare, branch, jump, load, store, movImm, move, extend,
    nop, mac, float]

def name : Category → String
  | unknown => "Unknown"
  | exception => "Exception"
  | arith => "Arith"
  | shift => "Shift"
  | compare => "Compare"
  | branch => "Branch"
  | jump => "Jump"
  | load => "Load"
  | store => "Store"
  | movImm => "MovImm"
  | move => "Move"
  | extend => "Extend"
  | nop => "Nop"
  | mac => "Mac"
  | float => "Float"

def ofName? (name : String) : Option Category :=
  all.find? fun category => category.name == name

theorem ofName?_name (category : Category) : ofName? category.name = some category := by
  cases category <;> decide

end Category

def delaySlotFlag : Word := 1

def readsFlag : Word := 2

def writesFlag : Word := 4

structure Opcode where
  name : String
  signature : String := ""
  template : String
  handler : Option String := none
  flags : Word := 0
  category : Category := .unknown
  deriving DecidableEq, Repr

namespace Opcode

def has (opcode : Opcode) (flag : Word) : Bool :=
  opcode.flags &&& flag != 0

def hasDelaySlot (opcode : Opcode) : Bool :=
  opcode.has delaySlotFlag

def flagNames (opcode : Opcode) : List String :=
  [(delaySlotFlag, "delay"), (readsFlag, "reads-flag"), (writesFlag, "writes-flag")].filterMap
    fun (flag, name) => if opcode.has flag then some name else none

end Opcode

end OpenRisc
