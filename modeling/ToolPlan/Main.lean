import ToolPlan.Cli

/-!
The executable: reads the files and the environment that a job needs, and prints its output. The log
goes to the error stream, and the error after it.
-/

namespace ToolPlan.Cli

def readText (path : String) : IO (Except FileError String) := do
  try
    let bytes ← IO.FS.readBinFile path
    return match String.fromUTF8? bytes with
      | some text => .ok text
      | none => .error .notText
  catch error =>
    return match error with
      | .noFileOrDirectory .. => .error .notFound
      | .inappropriateType .. => .error .isDirectory
      | other => .error (.other (toString other))

/-- The files that were read, by their paths. -/
def filesOfList (found : List (String × Except FileError String)) : Files := fun path =>
  (found.lookup path).getD (.error .notFound)

def Output.print (output : Output) : IO UInt32 := do
  for line in output.log do
    IO.eprintln (line.level.label ++ " " ++ line.text)
  IO.print output.printed
  if let some reason := output.error then
    IO.eprintln ("Error: " ++ reason)
  return output.exitCode.toUInt32

end ToolPlan.Cli

open ToolPlan.Cli in
def main (args : List String) : IO UInt32 := do
  let environment : Environment := ⟨← IO.getEnv "PLANSCRIPT_CONFIG", ← IO.getEnv "RUST_LOG"⟩
  let found ← (neededFiles args environment).mapM fun path => return (path, ← readText path)
  (program args (filesOfList found) environment .ticking).print
