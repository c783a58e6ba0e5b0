import DeviceTrial.CommandLine.Command

open DeviceTrial CommandLine

/-- The number of a fault, which the system may give below zero. -/
def isNumber (code : UInt32) (number : UInt32) : Bool := code = number || code = 0 - number

def faultOf : IO.Error → FileFault
  | .noFileOrDirectory .. => .notFound
  | .inappropriateType path code details =>
    if isNumber code 20 then .notDirectory
    else if isNumber code 21 then .isDirectory
    else .other (IO.Error.inappropriateType path code details).toString
  | .invalidArgument path code details =>
    if isNumber code 36 then .nameTooLong
    else .other (IO.Error.invalidArgument path code details).toString
  | fault => .other fault.toString

def contentOf (file : String) : IO FileContent := do
  match ← (IO.FS.readBinFile file).toBaseIO with
  | .error fault => return .unreadable (faultOf fault)
  | .ok bytes => match String.fromUTF8? bytes with
    | some text => return .text text
    | none => return .binary

def filesOf (usual : String) : Command → List String
  | .decode _ => []
  | .snapshot file _ => [file]
  | .config file => [file.getD usual]

/-- The usual settings file is named after the program. -/
def main (args : List String) : IO UInt32 := do
  let usual := ((← IO.appPath).fileStem.getD "settings") ++ ".toml"
  match parse args with
  | none =>
    IO.eprintln "usage: [-c FILE] [-v] (decode HEX | snapshot FILE [-a PATH] | config)"
    return 2
  | some command =>
    let found ← (filesOf usual command).mapM fun file => return (file, ← contentOf file)
    match command.run (fun file => (found.lookup file).getD (.unreadable .notFound)) usual with
    | .ok text =>
      IO.print text
      return 0
    | .error fault =>
      IO.eprintln ("Error: " ++ fault.message)
      return 1
