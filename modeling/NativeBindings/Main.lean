import NativeBindings.CommandLine.Program

namespace NativeBindings

/-! # The command line on a machine's own files -/

/-- Files of the machine.  What fails is a `false` or nothing at all. -/
instance : Files IO where
  readText path := do
    try pure (some (← IO.FS.readFile path)) catch _ => pure none
  createDirectories path := do
    try
      IO.FS.createDirAll path
      pure true
    catch _ => pure false
  writeText path text := do
    try
      IO.FS.writeFile path text
      pure true
    catch _ => pure false

end NativeBindings

open NativeBindings in
def main (arguments : List String) : IO UInt32 := do
  let outcome ← CommandLine.program arguments
  (← IO.getStdout).putStr outcome.output
  (← IO.getStderr).putStr outcome.errors
  pure (UInt32.ofNat outcome.status)
