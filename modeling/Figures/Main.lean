import Figures.Command.Run

/-!
# The program

`main` reads the files that a command line names, and standard input if it is asked for, and prints
the reply of `Figures.Command.run`.
-/

namespace Figures.Command

/-- the reason why a file cannot be read -/
def reasonOf (e : IO.Error) : String :=
  match e with
  | .noFileOrDirectory .. => "No such file or directory (os error 2)"
  | .permissionDenied .. => "Permission denied (os error 13)"
  | .inappropriateType .. => "Is a directory (os error 21)"
  | e => toString e

/-- what an action gives, or the reason why it fails -/
def attempt (action : IO String) : IO (Except String String) :=
  try return .ok (← action)
  catch e => return .error (reasonOf e)

def look (i : Invocation) : IO Surroundings := do
  let files ← i.files.mapM fun (path : String) => do return (path, ← attempt (IO.FS.readFile path))
  let input ← attempt (if i.task.readsInput then do (← IO.getStdin).readToEnd else pure "")
  let format ← IO.getEnv "DIAGRAM_ENGINE_LOG_FORMAT"
  return {
    file := fun path => (files.lookup path).getD (.error "No such file or directory (os error 2)")
    input
    setting := fun name => if name = "DIAGRAM_ENGINE_LOG_FORMAT" then format else none }

def present (reply : Reply) : IO UInt32 := do
  IO.print reply.out
  IO.eprint reply.err
  return UInt32.ofNat reply.code

end Figures.Command

/-- prints the reply to the command line -/
def main (args : List String) : IO UInt32 := do
  match Figures.Command.Invocation.read? args with
  | none => Figures.Command.present .usage
  | some i =>
    let s ← Figures.Command.look i
    Figures.Command.present (Figures.Command.run s args)
