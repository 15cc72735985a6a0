import OpenRisc.Command.InputWord
import OpenRisc.Command.Request
import OpenRisc.Disassembly
import OpenRisc.Text.Blank
import OpenRisc.Text.Column

set_option autoImplicit false

namespace OpenRisc.Command

inductive Failure where
  | invalidWord (word : String) (cause : WordError)
  | unreadableInput
  deriving DecidableEq, Repr

namespace Failure

def message : Failure → String
  | .invalidWord word _ => "Invalid instruction word `" ++ word ++ "`"
  | .unreadableInput => "Failed to read stdin"

def cause : Failure → String
  | .invalidWord _ cause => cause.message
  | .unreadableInput => "stream did not contain valid UTF-8"

def report (failure : Failure) : String :=
  "Error: " ++ failure.message ++ "\n\nCaused by:\n    " ++ failure.cause ++ "\n"

end Failure

structure Output where
  lines : List String
  failure? : Option Failure := none
  deriving DecidableEq, Repr

def Output.andThen (output next : Output) : Output :=
  match output.failure? with
  | some _ => output
  | none => { next with lines := output.lines ++ next.lines }

def render (table : Table) (format : Format) (raw : Word) : String :=
  match table.disassemble? raw with
  | none => Text.hexColumn raw ++ "  <invalid>"
  | some disassembly =>
    match format with
    | .text => Text.hexColumn raw ++ "  " ++ disassembly.text
    | .verbose =>
      let category := (table.opcode? disassembly.index).elim "" fun opcode => opcode.category.name
      let flags := (table.opcode? disassembly.index).elim [] Opcode.flagNames
      Text.hexColumn raw ++ "  " ++ Text.alignLeft 28 disassembly.text ++
        " #" ++ Text.alignLeft 3 (toString disassembly.index) ++
        " " ++ Text.alignLeft 9 category ++ " " ++ "|".intercalate flags

def decodeWords (table : Table) (format : Format) : List String → Output
  | [] => { lines := [] }
  | word :: rest =>
    match parseWord word with
    | .error cause => { lines := [], failure? := some (.invalidWord word cause) }
    | .ok raw =>
      Output.andThen { lines := [render table format raw] } (decodeWords table format rest)

def isLineFeed (byte : UInt8) : Bool :=
  byte == 10

def decodeLine (table : Table) (format : Format) (line : List UInt8) : Output :=
  match String.fromUTF8? line.toByteArray with
  | none => { lines := [], failure? := some .unreadableInput }
  | some text => decodeWords table format ((Text.words text.toList).map String.ofList)

def decodeLines (table : Table) (format : Format) : List (List UInt8) → Output
  | [] => { lines := [] }
  | line :: rest => (decodeLine table format line).andThen (decodeLines table format rest)

def decode (table : Table) (words : List String) (format : Format) (input : ByteArray) : Output :=
  if words.isEmpty then decodeLines table format (input.data.toList.splitOnP isLineFeed)
  else decodeWords table format words

end OpenRisc.Command
