import NativeBindings.CommandLine.Arguments
import NativeBindings.Files.Loading
import NativeBindings.Output.Generation

namespace NativeBindings

/-! # The program

Reads the configuration, then the index, and generates bindings.  What was skipped
is reported, and the written files are listed.
-/

namespace CommandLine

structure Outcome where
  status : Nat
  output : String := ""
  errors : String := ""
  deriving DecidableEq, Inhabited

def usage : String :=
  "Usage: native-bindings [-c CONFIG] [-o DIRECTORY] [-p PACKAGE] [-m source|metadata]\n" ++
  "                       [-e ENTRY_POINT] [-x FUNCTION]... [-v VERBOSITY] INDEX\n"

namespace Outcome

def failed (message : String) (causes : List String) : Outcome where
  status := 1
  errors := textOfLines (("Error: " ++ message) :: causes.map ("  because: " ++ ·))

def refused : Refusal → Outcome
  | .help => { status := 0, output := usage }
  | .misuse => { status := 2, errors := usage }

def generated (generation : Generation) : Outcome where
  status := 0
  output := textOfLines ((generation.bridgeFile :: generation.outputs).map (·.path))
  errors := textOfLines (generation.skipped.map fun skipped => "skipped " ++ skipped.text)

end Outcome

section

variable {m : Type → Type} [Monad m] [Files m]

def loadConfig : Option String → m (Except ConfigError Config)
  | none => pure (.ok {})
  | some path => Config.load path

def perform (request : Request) (path : String) : m Outcome := do
  match ← loadConfig request.config with
  | .error error => pure (.failed error.message [])
  | .ok config =>
      match ← Index.load path with
      | .error error => pure (.failed error.message error.causes)
      | .ok index =>
          match ← index.generateFiles (request.configure config) request.directory id with
          | .error error => pure (.failed error.message error.causes)
          | .ok generation => pure (.generated generation)

def program (arguments : List String) : m Outcome := do
  match Request.ofArguments arguments with
  | .error refusal => pure (.refused refusal)
  | .ok request =>
      match request.index with
      | some path => perform request path
      | none => pure (.refused .misuse)

end

end CommandLine

end NativeBindings
