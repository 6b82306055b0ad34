import NativeBindings.Json.Reader
import NativeBindings.Native.Document.Declaration
import NativeBindings.Native.Index

namespace NativeBindings

/-! # The index as a document

A document lists the declarations of each kind.  The index made from it keeps the
last declaration with an identity, in the place of the first.
-/

open Json Json.Decoder

structure IndexFile where
  preamble : List String := []
  functions : List FunctionDecl := []
  globals : List GlobalDecl := []
  structs : List StructDecl := []
  enums : List EnumDecl := []
  typedefs : List TypedefDecl := []
  macroConstants : List MacroConstant := []
  wrappedMacros : List WrappedMacro := []
  classes : List ClassDecl := []
  objcProtocols : List ObjCProtocolDecl := []
  objcClasses : List ObjCClassDecl := []
  objcCategories : List ObjCCategoryDecl := []
  deriving Inhabited

namespace IndexFile

def decoder : Decoder IndexFile :=
  record default [
    defaulted "preamble" (list string) fun file preamble => { file with preamble },
    defaulted "functions" (list FunctionDecl.decoder) fun file functions =>
      { file with functions },
    defaulted "globals" (list GlobalDecl.decoder) fun file globals => { file with globals },
    defaulted "structs" (list StructDecl.decoder) fun file structs => { file with structs },
    defaulted "enums" (list EnumDecl.decoder) fun file enums => { file with enums },
    defaulted "typedefs" (list TypedefDecl.decoder) fun file typedefs => { file with typedefs },
    defaulted "macro_constants" (list MacroConstant.decoder) fun file macroConstants =>
      { file with macroConstants },
    defaulted "wrapped_macros" (list WrappedMacro.decoder) fun file wrappedMacros =>
      { file with wrappedMacros },
    defaulted "classes" (list ClassDecl.decoder) fun file classes => { file with classes },
    defaulted "objc_protocols" (list ObjCProtocolDecl.decoder) fun file objcProtocols =>
      { file with objcProtocols },
    defaulted "objc_classes" (list ObjCClassDecl.decoder) fun file objcClasses =>
      { file with objcClasses },
    defaulted "objc_categories" (list ObjCCategoryDecl.decoder) fun file objcCategories =>
      { file with objcCategories }]

def encode (file : IndexFile) : Value :=
  .object [
    ("preamble", .strings file.preamble),
    ("functions", .array (file.functions.map FunctionDecl.encode)),
    ("globals", .array (file.globals.map GlobalDecl.encode)),
    ("structs", .array (file.structs.map StructDecl.encode)),
    ("enums", .array (file.enums.map EnumDecl.encode)),
    ("typedefs", .array (file.typedefs.map TypedefDecl.encode)),
    ("macro_constants", .array (file.macroConstants.map MacroConstant.encode)),
    ("wrapped_macros", .array (file.wrappedMacros.map WrappedMacro.encode)),
    ("classes", .array (file.classes.map ClassDecl.encode)),
    ("objc_protocols", .array (file.objcProtocols.map ObjCProtocolDecl.encode)),
    ("objc_classes", .array (file.objcClasses.map ObjCClassDecl.encode)),
    ("objc_categories", .array (file.objcCategories.map ObjCCategoryDecl.encode))]

end IndexFile

namespace Index

def ofFile (file : IndexFile) : Index where
  preamble := file.preamble
  functions := .ofList file.functions
  globals := .ofList file.globals
  structs := .ofList file.structs
  enums := .ofList file.enums
  typedefs := .ofList file.typedefs
  macroConstants := file.macroConstants
  wrappedMacros := file.wrappedMacros
  classes := .ofList file.classes
  objcProtocols := .ofList file.objcProtocols
  objcClasses := .ofList file.objcClasses
  objcCategories := .ofList file.objcCategories

def toFile (index : Index) : IndexFile where
  preamble := index.preamble
  functions := index.functions.values
  globals := index.globals.values
  structs := index.structs.values
  enums := index.enums.values
  typedefs := index.typedefs.values
  macroConstants := index.macroConstants
  wrappedMacros := index.wrappedMacros
  classes := index.classes.values
  objcProtocols := index.objcProtocols.values
  objcClasses := index.objcClasses.values
  objcCategories := index.objcCategories.values

def ofDocument (document : Document) : Except ReadError Index :=
  (document.decode IndexFile.decoder).map ofFile

def ofText (text : String) : Except ReadError Index := ofDocument (.ofText text)

end Index

end NativeBindings
