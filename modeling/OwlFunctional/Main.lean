import OwlFunctional.CommandLine

/-! The program: reads its file and prints its report. -/

set_option autoImplicit false

open OwlFunctional

namespace OwlFunctional.Main

partial def readAll (stream : IO.FS.Stream) (bytes : ByteArray) : IO ByteArray := do
  let chunk ← stream.read 65536
  if chunk.isEmpty then pure bytes else readAll stream (bytes ++ chunk)

def content (file : String) : IO CommandLine.Content := do
  if file = "-" then
    pure (.delivered { bytes := (← readAll (← IO.getStdin) .empty).toList })
  else
    try
      pure (.delivered { bytes := (← IO.FS.readBinFile file).toList })
    catch
      | .noFileOrDirectory .. => pure (.missing CommandLine.noSuchFile)
      | error => pure (.missing (toString error))

end OwlFunctional.Main

def main (args : List String) : IO UInt32 := do
  match CommandLine.parse? args with
  | none => pure (.ofNat CommandLine.usageExit)
  | some command =>
    let report := command.run (← IO.getEnv "RUST_LOG") (← OwlFunctional.Main.content command.file)
    IO.eprint report.errors
    IO.print report.output
    pure (.ofNat report.exit)
