import NativeBindings.Build.Library
import NativeBindings.Files.Basic
import NativeBindings.Naming.Manifest
import NativeBindings.Output.Metadata

namespace NativeBindings

/-! # Generating bindings

A run gives a bridge file, and beside it a listing for every module or one document
of metadata for all of them.  Files are written in this order until one cannot be
written; what was written before stays.
-/

structure OutputFile where
  path : String
  text : String
  deriving DecidableEq, Inhabited

structure Generation where
  skipped : List Skipped
  bridgeFile : OutputFile
  outputs : List OutputFile
  manifest : List (String × String)
  deriving Inhabited

inductive GenerateError where
  | stubs (cause : BuildError)
  | bridge (cause : BridgeError)
  | unwritable (path : String)
  deriving DecidableEq

namespace GenerateError

def message : GenerateError → String
  | .stubs _ => "Error building stubs"
  | .bridge _ => "Error writing output"
  | .unwritable path => "Failed to write \"" ++ path ++ "\""

def causes : GenerateError → List String
  | .stubs cause => cause.message :: cause.causes
  | .bridge cause => [cause.message, cause.cause.message]
  | .unwritable _ => []

end GenerateError

/-- How the modules of a bridge are laid out in files. -/
abbrev Arrangement := List BindingModule → List BindingModule

def outputFiles (mode : Mode) (directory package : String) (manifest : List (String × String))
    (modules : List BindingModule) : List OutputFile :=
  match mode with
  | .sourceCode => modules.map fun module => {
      path := joinPath directory (module.packageName package ++ "." ++ Listing.extension)
      text := Listing.text package module }
  | .metadata => [{
      path := joinPath directory (Metadata.fileName package)
      text := (Metadata.ofModules package manifest modules).text }]

namespace Index

/-- The stubs for the index, and the native code they are linked to. -/
def linked (index : Index) : ExceptT GenerateError (StateM Run) (Library × Bridge) := do
  let library ← ExceptT.mk do pure ((← index.build.run).mapError .stubs)
  let bridge ← ExceptT.mk do
    pure ((← (index.bridge library.stubs library.table).run).mapError .bridge)
  pure (library, bridge)

def generateIn (index : Index) (directory : String) (arrange : Arrangement) :
    ExceptT GenerateError (StateM Run) Generation := do
  let (library, bridge) ← index.linked
  let run ← getThe Run
  let config := run.config
  pure {
    skipped := library.skipped
    bridgeFile := {
      path := joinPath directory (bridgeFileName run.package)
      text := bridgeFile (index.preamble ++ config.extraPreamble) bridge.lines config.entryPoint }
    outputs := outputFiles config.mode directory run.package run.manifest (arrange bridge.modules)
    manifest := run.manifest }

def generate (index : Index) (config : Config) (directory : String) (arrange : Arrangement) :
    Except GenerateError Generation :=
  ((index.generateIn directory arrange).run (.start config)).1

end Index

section

variable {m : Type → Type} [Monad m] [Files m]

def writeFiles : List OutputFile → m (Except GenerateError Unit)
  | [] => pure (.ok ())
  | file :: rest => do
      if ← Files.writeText file.path file.text then writeFiles rest
      else pure (.error (.unwritable file.path))

/-- Makes the output directory, and generates into it. -/
def Index.generateFiles (index : Index) (config : Config) (directory : String)
    (arrange : Arrangement) : m (Except GenerateError Generation) := do
  if ← Files.createDirectories directory then
    match index.generate config directory arrange with
    | .error error => pure (.error error)
    | .ok generation =>
        match ← writeFiles (generation.bridgeFile :: generation.outputs) with
        | .error error => pure (.error error)
        | .ok () => pure (.ok generation)
  else pure (.error (.unwritable directory))

end

end NativeBindings
