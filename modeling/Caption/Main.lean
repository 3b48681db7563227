import Caption.Command.Run

/-! The program: it reads the files that its command line names, runs it, and prints. -/
namespace Caption

def readBytes (path : String) : IO ByteArray := do
  let handle ← IO.FS.Handle.mk path .read
  handle.readBinToEnd

def readText (path : String) : IO (Except FileError String) := do
  match ← (readBytes path).toBaseIO with
  | .ok bytes =>
    match String.fromUTF8? bytes with
    | some text => return .ok text
    | none => return .error .notText
  | .error (.inappropriateType _ 20 _) => return .error .notADirectory
  | .error (.inappropriateType _ _ _) => return .error .isDirectory
  | .error (.permissionDenied _ _ _) => return .error .denied
  | .error (.invalidArgument _ 36 _) => return .error .nameTooLong
  | .error _ => return .error .notFound

end Caption

open Caption in
def main (arguments : List String) : IO UInt32 := do
  let readings ← (Command.paths arguments).mapM fun path => do
    let contents ← readText path
    return (path, contents)
  let outcome := Command.run (Files.ofReadings readings) arguments
  IO.print outcome.output
  IO.eprint outcome.errors
  return outcome.code.toUInt32
