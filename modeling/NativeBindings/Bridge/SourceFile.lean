import NativeBindings.Text.Symbol

namespace NativeBindings

/-! # The bridge file

The native code of a run, so wrapped that it compiles as C and as C++.
-/

def runtimeMain : String := "Konan_main"

def bridgeFileName (package : String) : String := symbolName package ++ "_bridge.cpp"

def entryPointLines (entryPoint : String) : List String := [
  "",
  "extern int " ++ runtimeMain ++ "(int argc, char** argv);",
  "int " ++ entryPoint ++ "(int argc, char** argv) \x7b return " ++ runtimeMain ++
    "(argc, argv); \x7d"]

def bridgeFileLines (preamble lines : List String) (entryPoint : Option String) :
    List String :=
  preamble ++
    ["", "#ifdef __cplusplus", "extern \"C\" \x7b", "#endif", ""] ++
    lines ++
    (entryPoint.map entryPointLines).getD [] ++
    ["", "#ifdef __cplusplus", "\x7d", "#endif"]

def textOfLines (lines : List String) : String := String.join (lines.map (· ++ "\n"))

def bridgeFile (preamble lines : List String) (entryPoint : Option String) : String :=
  textOfLines (bridgeFileLines preamble lines entryPoint)

end NativeBindings
