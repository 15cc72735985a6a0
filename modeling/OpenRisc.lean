import OpenRisc.Main
import OpenRisc.Proofs.Traversal
import OpenRisc.Proofs.Selection
import OpenRisc.Proofs.Text.Numeral
import OpenRisc.Proofs.Text.Spelling
import OpenRisc.Proofs.Command.Input
import OpenRisc.Proofs.Command.InputWord
import OpenRisc.Proofs.Operand.Text
import OpenRisc.Proofs.Template.Number
import OpenRisc.Proofs.Template.Grouping
import OpenRisc.Proofs.Template.Reading
import OpenRisc.Proofs.Template.Value
import OpenRisc.Proofs.Template.Insertion
import OpenRisc.Proofs.Template.Runs
import OpenRisc.Proofs.Template.Update
import OpenRisc.Proofs.Template.Meaning
import OpenRisc.Proofs.LetterTable.Agreement
import OpenRisc.Proofs.LetterTable.Conflict
import OpenRisc.Proofs.LetterTable.Contents
import OpenRisc.Proofs.LetterTable.Scan
import OpenRisc.Proofs.Signature.Grammar
import OpenRisc.Proofs.Signature.Offset
import OpenRisc.Proofs.Program.Extraction
import OpenRisc.Proofs.Program.Fields
import OpenRisc.Proofs.Program.Operands
import OpenRisc.Proofs.Program.Locality
import OpenRisc.Proofs.Program.Shifts
import OpenRisc.Proofs.Program.Composition
import OpenRisc.Proofs.Program.Emission
import OpenRisc.Proofs.Program.Layout
import OpenRisc.Proofs.Program.Assembly
import OpenRisc.Proofs.Program.Refusal
import OpenRisc.Proofs.Automaton.Splitting
import OpenRisc.Proofs.Automaton.Overlap
import OpenRisc.Proofs.Automaton.Budget
import OpenRisc.Proofs.Automaton.Separability
import OpenRisc.Proofs.Automaton.Descent
import OpenRisc.Proofs.Automaton.Arena
import OpenRisc.Proofs.Automaton.Size
import OpenRisc.Proofs.Automaton.Serialization
import OpenRisc.Proofs.Automaton.Selection
import OpenRisc.Proofs.Automaton.Walking
import OpenRisc.Proofs.Automaton.Widest
import OpenRisc.Proofs.Automaton.Scanning
import OpenRisc.Proofs.Automaton.Path
import OpenRisc.Proofs.Automaton.Greedy
import OpenRisc.Proofs.Automaton.Numbering
import OpenRisc.Proofs.Automaton.ProperTree
import OpenRisc.Proofs.Automaton.Flattening
import OpenRisc.Proofs.Automaton.Recovery
import OpenRisc.Proofs.Automaton.Records
import OpenRisc.Proofs.Automaton.Drafting
import OpenRisc.Proofs.Automaton.Capacity
import OpenRisc.Proofs.Automaton.Relabelling
import OpenRisc.Proofs.Automaton.Reordering
import OpenRisc.Proofs.Table.Compilation
import OpenRisc.Proofs.Table.Decoding
import OpenRisc.Proofs.Table.Operands
import OpenRisc.Proofs.Table.Insertion
import OpenRisc.Proofs.Table.Disassembly
import OpenRisc.Proofs.Table.Selection
import OpenRisc.Proofs.Table.Bounds
import OpenRisc.Proofs.Table.Ambiguity
import OpenRisc.Proofs.Table.Programs
