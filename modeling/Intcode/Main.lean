import Intcode.CommandLine

/-!
# The program

Collects the arguments, the variables and the files that the arguments may refer to, and
prints what the command line makes of them.

Which paths there are is left to the operating system; what cannot be read counts as a
directory.
-/
namespace Intcode.Main

/-- The paths that an argument may refer to: itself, or the value after an equals sign. -/
def pathsIn (arg : String) : List String :=
  match CommandLine.splitEquals arg.toList with
  | (_, some value) => [arg, value]
  | (_, none) => [arg]

/-- What is found under a path. What cannot be read is not a file. -/
def lookUp (path : String) : IO (Option CommandLine.Entry) := do
  try
    let bytes ← IO.FS.readBinFile path
    return some (.file bytes.toList)
  catch
    | .noFileOrDirectory .. => return none
    | _ => return some .directory

def lookUpAll (args : List String) : IO (List (String × CommandLine.Entry)) := do
  let mut found := []
  for path in args.flatMap pathsIn do
    match ← lookUp path with
    | some entry => found := (path, entry) :: found
    | none => pure ()
  return found

def assignments : IO (List (String × String)) := do
  let mut found := []
  for name in ["INTCODE_MAX_STEPS", "INTCODE_TRACE", "INTCODE_LOG_LEVEL"] do
    match ← IO.getEnv name with
    | some value => found := (name, value) :: found
    | none => pure ()
  return found

def fuel : Nat := 1000000000000000000

end Intcode.Main

def main (args : List String) : IO UInt32 := do
  let found ← Intcode.Main.lookUpAll args
  let assignments ← Intcode.Main.assignments
  let settings := Intcode.Settings.ofEnvironment fun name => assignments.lookup name
  let surroundings : Intcode.CommandLine.Surroundings :=
    ⟨settings, fun path => found.lookup path⟩
  let conclusion := Intcode.CommandLine.run surroundings Intcode.Main.fuel args
  IO.print conclusion.ending.output
  match conclusion.ending.complaint? with
  | some complaint => IO.eprintln complaint
  | none => pure ()
  return UInt32.ofNat conclusion.ending.exitCode
