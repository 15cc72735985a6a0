import OpenRisc.Command.Decode
import OpenRisc.Command.Listing
import OpenRisc.Command.Summary

set_option autoImplicit false

namespace OpenRisc.Command

structure Outcome where
  exitCode : UInt8
  stdout : String := ""
  stderr : String := ""
  deriving DecidableEq, Repr

def usage : String :=
  Text.unlines
    ["Usage: or1k-dis <COMMAND>",
      "",
      "Commands:",
      "  decode [WORDS]... [-f|--format text|verbose]",
      "  table [-p|--prefix TEXT] [--letters]",
      "  automaton [--flat]"]

def versionLine : String := "or1k-dis 0.1.0"

def Request.output (table : Table) (input : ByteArray) : Request → Output
  | .version => { lines := [versionLine] }
  | .decode words format => Command.decode table words format input
  | .table start? letters => { lines := listing table start? letters }
  | .automaton true => { lines := imageLines table }
  | .automaton false => { lines := summary table }

def Output.outcome (output : Output) : Outcome :=
  match output.failure? with
  | none => { exitCode := 0, stdout := Text.unlines output.lines }
  | some failure =>
    { exitCode := 1, stdout := Text.unlines output.lines, stderr := failure.report }

def run (table : Table) (environment : Option String) (arguments : List String)
    (input : ByteArray) : Outcome :=
  match Request.ofArguments environment arguments with
  | .ok request => (request.output table input).outcome
  | .error .help => { exitCode := 0, stderr := usage }
  | .error .misuse => { exitCode := 2, stderr := usage }

def readsInput (environment : Option String) (arguments : List String) : Bool :=
  match Request.ofArguments environment arguments with
  | .ok (.decode words _) => words.isEmpty
  | _ => false

end OpenRisc.Command
