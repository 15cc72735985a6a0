set_option autoImplicit false

namespace OpenRisc.Command

inductive Switch (Flag Setting : Type) where
  | flag (key : Flag)
  | setting (key : Setting)

structure Switches (Flag Setting : Type) where
  short? : Char → Option (Switch Flag Setting)
  long? : String → Option (Switch Flag Setting)

inductive Argument (Flag Setting : Type) where
  | flag (key : Flag)
  | setting (key : Setting) (value : String)
  | word (text : String)
  | malformed

namespace Switches

variable {Flag Setting : Type}

def scanShort (switches : Switches Flag Setting) :
    List Char → List (Argument Flag Setting) × Option Setting
  | [] => ([], none)
  | c :: rest =>
    match switches.short? c with
    | none => ([.malformed], none)
    | some (.flag key) =>
      let scanned := scanShort switches rest
      (.flag key :: scanned.1, scanned.2)
    | some (.setting key) =>
      match rest with
      | [] => ([], some key)
      | '=' :: value => ([.setting key (String.ofList value)], none)
      | value => ([.setting key (String.ofList value)], none)

def scanLong (switches : Switches Flag Setting) (text : List Char) :
    List (Argument Flag Setting) × Option Setting :=
  match switches.long? (String.ofList (text.takeWhile (· != '='))), text.dropWhile (· != '=') with
  | some (.flag key), [] => ([.flag key], none)
  | some (.setting key), [] => ([], some key)
  | some (.setting key), _ :: value => ([.setting key (String.ofList value)], none)
  | _, _ => ([.malformed], none)

def scanArgument (switches : Switches Flag Setting) (argument : String) :
    List (Argument Flag Setting) × Option Setting :=
  match argument.toList with
  | '-' :: '-' :: text => switches.scanLong text
  | '-' :: c :: rest => switches.scanShort (c :: rest)
  | _ => ([.word argument], none)

def looksLikeSwitch (argument : String) : Bool :=
  match argument.toList with
  | '-' :: _ :: _ => true
  | _ => false

def scanFrom (switches : Switches Flag Setting) (pending : Option Setting) :
    List String → List (Argument Flag Setting)
  | [] => if pending.isSome then [.malformed] else []
  | argument :: rest =>
    match pending with
    | some key =>
      if looksLikeSwitch argument then [.malformed]
      else .setting key argument :: scanFrom switches none rest
    | none =>
      if argument = "--" then rest.map .word
      else
        let scanned := switches.scanArgument argument
        scanned.1 ++ scanFrom switches scanned.2 rest

def scan (switches : Switches Flag Setting) (arguments : List String) :
    List (Argument Flag Setting) :=
  switches.scanFrom none arguments

end Switches

end OpenRisc.Command
