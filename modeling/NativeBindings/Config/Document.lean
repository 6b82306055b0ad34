import NativeBindings.Config
import NativeBindings.Json.Decoder
import NativeBindings.Json.Reader

namespace NativeBindings

/-! # The configuration as a document -/

open Json Json.Decoder

namespace Platform

def decoder : Decoder Platform := choice [("native", .plain .native), ("jvm", .plain .jvm)]

def encode (platform : Platform) : Value := .string platform.text

end Platform

namespace Mode

def decoder : Decoder Mode :=
  choice [("source_code", .plain .sourceCode), ("metadata", .plain .metadata)]

def encode : Mode → Value
  | .sourceCode => .string "source_code"
  | .metadata => .string "metadata"

end Mode

namespace Config

/-- A set is written as the list of its members, in any order. -/
def names : Decoder (SortedSet String) := (list string).map SortedSet.ofMembers

def decoder : Decoder Config :=
  record {} [
    defaulted "package" (optional string) fun config package => { config with package },
    defaulted "library_name" string fun config libraryName => { config with libraryName },
    defaulted "excluded_functions" names fun config excludedFunctions =>
      { config with excludedFunctions },
    defaulted "excluded_macros" names fun config excludedMacros =>
      { config with excludedMacros },
    defaulted "strict_enums" names fun config strictEnums => { config with strictEnums },
    defaulted "non_strict_enums" names fun config nonStrictEnums =>
      { config with nonStrictEnums },
    defaulted "export_forward_declarations" (list string) fun config exportForwardDeclarations =>
      { config with exportForwardDeclarations },
    defaulted "platform" Platform.decoder fun config platform => { config with platform },
    defaulted "mode" Mode.decoder fun config mode => { config with mode },
    defaulted "entry_point" (optional string) fun config entryPoint =>
      { config with entryPoint },
    defaulted "extra_preamble" (list string) fun config extraPreamble =>
      { config with extraPreamble }]

def encode (config : Config) : Value :=
  .object [
    ("package", .optional .string config.package),
    ("library_name", .string config.libraryName),
    ("excluded_functions", .strings config.excludedFunctions.keys),
    ("excluded_macros", .strings config.excludedMacros.keys),
    ("strict_enums", .strings config.strictEnums.keys),
    ("non_strict_enums", .strings config.nonStrictEnums.keys),
    ("export_forward_declarations", .strings config.exportForwardDeclarations),
    ("platform", config.platform.encode),
    ("mode", config.mode.encode),
    ("entry_point", .optional .string config.entryPoint),
    ("extra_preamble", .strings config.extraPreamble)]

def ofDocument (document : Document) : Except ReadError Config := document.decode decoder

def ofText (text : String) : Except ReadError Config := ofDocument (.ofText text)

end Config

end NativeBindings
