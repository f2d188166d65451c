import CreateIndex.CommandLine

/-!
# The program

Reads what the request names, and leaves the rest to `CommandLine.run`.
-/

namespace CreateIndex

def readFile? (path : String) : IO (Option ByteArray) := do
  try
    return some (← IO.FS.readBinFile path)
  catch _ =>
    return none

partial def readToEnd (stream : IO.FS.Stream) (bytes : ByteArray := .empty) :
    IO ByteArray := do
  let chunk ← stream.read 65536
  if chunk.isEmpty then return bytes else readToEnd stream (bytes ++ chunk)

/-- Reads the input of a request, and nothing else. -/
def Source.environment : Source → IO Environment
  | .inline _ => return {}
  | .file path => do
    let bytes ← readFile? path
    return { file := fun _ => bytes }
  | .stdin => return { stdin := ← readToEnd (← IO.getStdin) }

def program (args : List String) : IO UInt32 := do
  let environment ←
    match CommandLine.Invocation.ofArgs args with
    | .work request => request.source.environment
    | _ => pure {}
  let ended := CommandLine.run environment args
  (← IO.getStderr).putStr ended.stderr
  (← IO.getStdout).putStr ended.stdout
  return ended.code

end CreateIndex

def main (args : List String) : IO UInt32 :=
  CreateIndex.program args
