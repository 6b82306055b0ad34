import NativeBindings.Config

namespace NativeBindings

/-! # Arguments of the command line

Options are given by a letter behind one hyphen or by a name behind two, and each
takes a value: from the same argument, or else from the next one if that is no
option.  An option given again counts as given last.  What is left is the path of
the index.  Behind `--` nothing is an option.
-/

namespace CommandLine

inductive Setting where
  | config
  | outDir
  | package
  | mode
  | entryPoint
  | exclude
  | verbosity
  deriving DecidableEq

/-- The letter and the name of every option. -/
def settings : List (Char × String × Setting) := [
  ('c', "config", .config),
  ('o', "out-dir", .outDir),
  ('p', "package", .package),
  ('m', "mode", .mode),
  ('e', "entry-point", .entryPoint),
  ('x', "exclude", .exclude),
  ('v', "verbosity", .verbosity)]

def verbosities : List String := ["trace", "debug", "info", "warn", "error"]

def mode? : String → Option Mode
  | "source" => some .sourceCode
  | "metadata" => some .metadata
  | _ => none

structure Request where
  index : Option String := none
  config : Option String := none
  outDir : Option String := none
  package : Option String := none
  mode : Option Mode := none
  entryPoint : Option String := none
  excluded : List String := []
  verbosity : Option String := none
  deriving Inhabited

inductive Refusal where
  | help
  | misuse
  deriving DecidableEq

/-- A path has a name at least. -/
def path? (value : String) : Option String := if value = "" then none else some value

namespace Request

/-- Gives a setting a value, in place of an earlier one; functions to leave out add
up.  Nothing if the setting cannot have the value. -/
def give (request : Request) (setting : Setting) (value : String) : Option Request :=
  match setting with
  | .config => (path? value).map fun path => { request with config := path }
  | .outDir => (path? value).map fun path => { request with outDir := path }
  | .package => some { request with package := value }
  | .mode => (mode? value).map fun mode => { request with mode }
  | .entryPoint => some { request with entryPoint := value }
  | .exclude => some { request with excluded := request.excluded ++ [value] }
  | .verbosity =>
      (verbosities.find? (· = value)).map fun verbosity => { request with verbosity }

def giveIndex (request : Request) (value : String) : Option Request :=
  if request.index.isSome then none
  else (path? value).map fun path => { request with index := path }

/-- The configuration with what the arguments say instead. -/
def configure (request : Request) (config : Config) : Config :=
  { config with
    package := request.package.or config.package
    entryPoint := request.entryPoint.or config.entryPoint
    mode := request.mode.getD config.mode
    excludedFunctions := request.excluded.foldl SortedSet.add config.excludedFunctions }

def directory (request : Request) : String := request.outDir.getD "."

end Request

inductive Word where
  | long (name : String) (value : Option String)
  | short (letter : Char) (rest : List Char)
  | separator
  | plain
  deriving DecidableEq

def splitValue (text : List Char) : String × Option String :=
  let value := match text.dropWhile (· ≠ '=') with
    | [] => none
    | _ :: rest => some (String.ofList rest)
  (String.ofList (text.takeWhile (· ≠ '=')), value)

def Word.ofText (text : String) : Word :=
  match text.toList with
  | ['-', '-'] => .separator
  | '-' :: '-' :: rest => let (name, value) := splitValue rest; .long name value
  | '-' :: letter :: rest => .short letter rest
  | _ => .plain

/-- The value that stands behind a letter; an equals sign before it is no part of
it. -/
def attachedValue : List Char → Option String
  | [] => none
  | '=' :: rest => some (String.ofList rest)
  | rest => some (String.ofList rest)

/-- Reading arguments: what was asked for so far, the settings that were named last
without a value, the one of them that takes the next argument, and whether options
may still come. -/
structure Reading where
  request : Request := {}
  unanswered : List Setting := []
  pending : Option Setting := none
  isTrailing : Bool := false

namespace Reading

def take (reading : Reading) (setting : Option Setting) (value : String) :
    Except Refusal Reading :=
  let request := match setting with
    | some setting => reading.request.give setting value
    | none => reading.request.giveIndex value
  match request with
  | some request => .ok { reading with
      request, pending := none
      unanswered := reading.unanswered.filter fun other => some other ≠ setting }
  | none => .error .misuse

/-- Takes a setting without a value.  One function to leave out will do for all
times that they are asked for. -/
def mention (reading : Reading) (setting : Setting) : Reading :=
  let answered := setting = .exclude && !reading.request.excluded.isEmpty
  { reading with
    pending := setting
    unanswered := if answered then reading.unanswered else setting :: reading.unanswered }

def option (reading : Reading) (setting : Option Setting) (value : Option String) :
    Except Refusal Reading :=
  match setting, value with
  | some setting, some value => reading.take setting value
  | some setting, none => .ok (reading.mention setting)
  | none, _ => .error .misuse

/-- Reads one argument.  Help takes no value. -/
def next (reading : Reading) (argument : String) : Except Refusal Reading :=
  if reading.isTrailing then reading.take none argument
  else
    match Word.ofText argument with
    | .separator => .ok { reading with isTrailing := true }
    | .long name value =>
        if name = "help" then .error (if value.isNone then .help else .misuse)
        else reading.option ((settings.find? (·.2.1 = name)).map (·.2.2)) value
    | .short letter rest =>
        if letter = 'h' then .error .help
        else reading.option ((settings.find? (·.1 = letter)).map (·.2.2)) (attachedValue rest)
    | .plain => reading.take reading.pending argument

end Reading

/-- Reads all arguments.  No option may be left without a value, and an index must be
given. -/
def Request.ofArguments (arguments : List String) : Except Refusal Request := do
  let reading ← arguments.foldlM Reading.next {}
  if !reading.unanswered.isEmpty || reading.request.index.isNone then throw .misuse
  pure reading.request

end CommandLine

end NativeBindings
