namespace NativeBindings

/-! # Reading and writing files

The program sees files through three operations, each of which may fail.  What
stands behind them is a parameter: the files of a machine, or a `FileTree`.
-/

class Files (m : Type → Type) where
  /-- The text of a file; nothing if it cannot be read or is not UTF-8. -/
  readText : (path : String) → m (Option String)
  /-- Makes a directory and those around it; says whether it is there. -/
  createDirectories : (path : String) → m Bool
  /-- Makes a file hold a text; says whether it does. -/
  writeText : (path text : String) → m Bool

def joinPath (directory name : String) : String :=
  if name.startsWith "/" || directory = "" then name
  else if directory.endsWith "/" then directory ++ name
  else directory ++ "/" ++ name

end NativeBindings
