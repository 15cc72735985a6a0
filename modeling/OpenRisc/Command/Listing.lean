import OpenRisc.Table
import OpenRisc.Text.Column

set_option autoImplicit false

namespace OpenRisc.Command

def opcodeLine (row : Row × Nat) : String :=
  let opcode := row.1.opcode
  let pattern := row.1.template.pattern
  let marks := opcode.flagNames ++ if opcode.handler.isNone then ["no-handler"] else []
  Text.alignRight 3 (toString row.2) ++ "  " ++ Text.alignLeft 11 opcode.name ++
    " " ++ Text.alignLeft 14 opcode.signature ++
    " mask=0x" ++ Text.hexColumn pattern.mask ++ " value=0x" ++ Text.hexColumn pattern.value ++
    "  " ++ Text.alignLeft 9 opcode.category.name ++ " " ++ ",".intercalate marks

def startsWith (start? : Option String) (row : Row × Nat) : Bool :=
  match start? with
  | some start => start.toList.isPrefixOf row.1.opcode.name.toList
  | none => true

def letterLine (table : Table) (info : LetterInfo) : String :=
  let firstName := ((table.opcode? info.firstRow).map Opcode.name).getD "?"
  info.letter.toString ++ "  " ++ Text.alignRight 2 (toString info.width) ++ " bits  " ++
    Text.alignLeft 8 (if info.signed then "signed" else "unsigned") ++
    "  first used by " ++ firstName

def listing (table : Table) (start? : Option String) (letters : Bool) : List String :=
  (table.rows.toList.zipIdx.filter (startsWith start?)).map opcodeLine ++
    if letters then "" :: table.letters.entries.map (letterLine table) else []

end OpenRisc.Command
