import NativeBindings.Json.Decoder
import NativeBindings.Native.Declaration

namespace NativeBindings

/-! # What goes wrong with an index

A declaration is not in the index, or not there only once; or there is no index,
because its file or its document cannot be read.
-/

open Json

inductive IndexError where
  | structNotFound (id : DeclId)
  | enumNotFound (id : DeclId)
  | typedefNotFound (id : DeclId)
  | classNotFound (id : DeclId)
  | functionNotFound (name : String)
  | objcContainerNotFound (id : DeclId)
  | multipleMatches (name : String)
  | malformed (cause : ReadError)
  | inaccessible
  | unreadable (path : String) (cause : IndexError)
  deriving DecidableEq

namespace IndexError

def message : IndexError → String
  | .structNotFound id => "Could not find struct \"" ++ id.text ++ "\" in index"
  | .enumNotFound id => "Could not find enum \"" ++ id.text ++ "\" in index"
  | .typedefNotFound id => "Could not find typedef \"" ++ id.text ++ "\" in index"
  | .classNotFound id => "Could not find class \"" ++ id.text ++ "\" in index"
  | .functionNotFound name => "Could not find function \"" ++ name ++ "\" in index"
  | .objcContainerNotFound id =>
      "Could not find objc class or protocol \"" ++ id.text ++ "\" in index"
  | .multipleMatches name => "Multiple matches for \"" ++ name ++ "\" were found"
  | .malformed _ => "Failed to parse declaration index"
  | .inaccessible => "I/O error"
  | .unreadable path _ => "Failed to read declaration index from \"" ++ path ++ "\""

def causes : IndexError → List String
  | .malformed cause => [cause.message]
  | .unreadable _ cause => cause.message :: cause.causes
  | _ => []

end IndexError

end NativeBindings
