import OpenRisc.Command.Arguments

set_option autoImplicit false

namespace OpenRisc.Command

inductive Format where
  | text
  | verbose
  deriving DecidableEq, Repr

def Format.ofName? : String → Option Format
  | "text" => some .text
  | "verbose" => some .verbose
  | _ => none

inductive Request where
  | version
  | decode (words : List String) (format : Format)
  | table (start? : Option String) (letters : Bool)
  | automaton (flat : Bool)
  deriving DecidableEq, Repr

inductive Refusal where
  | help
  | misuse
  deriving DecidableEq, Repr

inductive DecodeFlag where
  | help

inductive DecodeSetting where
  | format

def decodeSwitches : Switches DecodeFlag DecodeSetting where
  short?
    | 'h' => some (.flag .help)
    | 'f' => some (.setting .format)
    | _ => none
  long?
    | "help" => some (.flag .help)
    | "format" => some (.setting .format)
    | _ => none

def readDecode (format? : Option Format) :
    List (Argument DecodeFlag DecodeSetting) → Except Refusal (List String × Option Format)
  | [] => .ok ([], format?)
  | .word text :: rest => do
    let (words, format?) ← readDecode format? rest
    return (text :: words, format?)
  | .setting .format name :: rest =>
    match format?, Format.ofName? name with
    | none, some format => readDecode (some format) rest
    | _, _ => .error .misuse
  | .flag .help :: _ => .error .help
  | .malformed :: _ => .error .misuse

def formatOfEnvironment : Option String → Except Refusal Format
  | none => .ok .text
  | some name =>
    match Format.ofName? name with
    | some format => .ok format
    | none => .error .misuse

def decodeRequest (environment : Option String) (arguments : List String) :
    Except Refusal Request := do
  let (words, format?) ← readDecode none (decodeSwitches.scan arguments)
  match format? with
  | some format => return .decode words format
  | none => return .decode words (← formatOfEnvironment environment)

inductive TableFlag where
  | help
  | letters

inductive TableSetting where
  | start

def tableSwitches : Switches TableFlag TableSetting where
  short?
    | 'h' => some (.flag .help)
    | 'p' => some (.setting .start)
    | _ => none
  long?
    | "help" => some (.flag .help)
    | "letters" => some (.flag .letters)
    | "prefix" => some (.setting .start)
    | _ => none

def readTable (start? : Option String) (letters : Bool) :
    List (Argument TableFlag TableSetting) → Except Refusal Request
  | [] => .ok (.table start? letters)
  | .setting .start text :: rest =>
    if start?.isSome then .error .misuse else readTable (some text) letters rest
  | .flag .letters :: rest =>
    if letters then .error .misuse else readTable start? true rest
  | .flag .help :: _ => .error .help
  | .word _ :: _ => .error .misuse
  | .malformed :: _ => .error .misuse

inductive AutomatonFlag where
  | help
  | flat

def automatonSwitches : Switches AutomatonFlag Empty where
  short?
    | 'h' => some (.flag .help)
    | _ => none
  long?
    | "help" => some (.flag .help)
    | "flat" => some (.flag .flat)
    | _ => none

def readAutomaton (flat : Bool) :
    List (Argument AutomatonFlag Empty) → Except Refusal Request
  | [] => .ok (.automaton flat)
  | .flag .flat :: rest => if flat then .error .misuse else readAutomaton true rest
  | .flag .help :: _ => .error .help
  | .word _ :: _ => .error .misuse
  | .malformed :: _ => .error .misuse

def commandNames : List String :=
  ["decode", "table", "automaton", "help"]

def helpRequest : List String → Except Refusal Request
  | [] => .error .help
  | [name] => if commandNames.contains name then .error .help else .error .misuse
  | _ => .error .misuse

inductive GlobalFlag where
  | help
  | version

def globalSwitches : Switches GlobalFlag Empty where
  short?
    | 'h' => some (.flag .help)
    | 'V' => some (.flag .version)
    | _ => none
  long?
    | "help" => some (.flag .help)
    | "version" => some (.flag .version)
    | _ => none

def commandRequest (environment : Option String) (name : String) (arguments : List String) :
    Except Refusal Request :=
  match name with
  | "decode" => decodeRequest environment arguments
  | "table" => readTable none false (tableSwitches.scan arguments)
  | "automaton" => readAutomaton false (automatonSwitches.scan arguments)
  | "help" => helpRequest arguments
  | _ => .error .misuse

def Request.ofArguments (environment : Option String) :
    List String → Except Refusal Request
  | [] => .error .misuse
  | first :: rest =>
    match globalSwitches.scan [first] with
    | .word name :: _ => commandRequest environment name rest
    | .flag .version :: _ => .ok .version
    | .flag .help :: _ => .error .help
    | _ => .error .misuse

end OpenRisc.Command
