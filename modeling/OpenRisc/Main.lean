import OpenRisc.Command.Run
import OpenRisc.InstructionSet

set_option autoImplicit false

open OpenRisc

def main (arguments : List String) : IO UInt32 := do
  match instructionTable with
  | .error error =>
    IO.eprintln (error.message instructions)
    return 1
  | .ok table =>
    let environment ← IO.getEnv "OR1K_DIS_FORMAT"
    let input ← if Command.readsInput environment arguments then
      (← IO.getStdin).readBinToEnd else pure ByteArray.empty
    let outcome := Command.run table environment arguments input
    IO.print outcome.stdout
    IO.eprint outcome.stderr
    return outcome.exitCode.toUInt32
