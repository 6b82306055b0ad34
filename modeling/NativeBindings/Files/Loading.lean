import NativeBindings.Config.Document
import NativeBindings.Files.Basic
import NativeBindings.Native.Document.Index

namespace NativeBindings

/-! # Loading documents

An index and a configuration come from files.  An error says which file it is about,
and why nothing came of it.
-/

open Json

/-- A configuration that could not be read from a file; the cause is nothing if the
file has no text. -/
structure ConfigError where
  path : String
  cause : Option ReadError
  deriving DecidableEq

def ConfigError.message (error : ConfigError) : String :=
  "Failed to read config \"" ++ error.path ++ "\""

section

variable {m : Type → Type} [Monad m] [Files m]

def Config.load (path : String) : m (Except ConfigError Config) := do
  match ← Files.readText path with
  | none => pure (.error ⟨path, none⟩)
  | some text => pure ((Config.ofText text).mapError fun cause => ⟨path, some cause⟩)

def Index.load (path : String) : m (Except IndexError Index) := do
  match ← Files.readText path with
  | none => pure (.error (.unreadable path .inaccessible))
  | some text =>
      pure ((Index.ofText text).mapError fun cause => .unreadable path (.malformed cause))

end

end NativeBindings
