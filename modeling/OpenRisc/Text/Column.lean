set_option autoImplicit false

namespace OpenRisc.Text

def alignRight (width : Nat) (text : String) : String :=
  String.ofList (text.toList.leftpad width ' ')

def alignLeft (width : Nat) (text : String) : String :=
  String.ofList (text.toList.rightpad width ' ')

def unlines (lines : List String) : String :=
  String.join (lines.map (· ++ "\n"))

end OpenRisc.Text
