import ComponentPreview.Source.Import
import ComponentPreview.Stub.Basic
import ComponentPreview.Unicode.Upper

/-!
# Stubs of a source

Every name that a source uses as a component and does not declare itself gets a stub: first the
exports of libraries with stand-ins, then the names a host asks for, then imported names, then
names of markup tags.
-/

namespace ComponentPreview

namespace Source

open Pattern

def markupTag : Pattern :=
  notAfter (fun c => isNameChar c || c == '.') ++ lit "<" ++
    capture (one Char.isUpper ++ many isNameChar)

def declaration : Pattern :=
  wordEdge ++ anyOf ["function*", "function", "class", "const", "let", "var"] ++ gap ++
    capture name

def namedImport : Pattern :=
  lit "import" ++ gap ++ optional (name ++ spacing ++ lit "," ++ spacing) ++ lit "\x7b" ++
    capture (every (· != '\x7d')) ++ lit "\x7d" ++ spacing ++ lit "from" ++ spacing ++ quotedText

def namespaceImport : Pattern :=
  lit "import" ++ gap ++ lit "*" ++ gap ++ lit "as" ++ gap ++ capture name ++ gap ++ lit "from" ++
    spacing ++ quotedText

def declaredNames (text : List Char) : List String :=
  Text.distinct ((declaration.findAll text).map fun found => String.ofList (found.group 0))

def markupNames (text : List Char) : List String :=
  Text.distinct ((markupTag.findAll text).map fun found => String.ofList (found.group 0))

def startsUpperCase (name : String) : Bool :=
  match name.toList with
  | c :: _ => isUpperCase c
  | [] => false

/-- The capitalised names that imports of modules foreign to the runtime bind. -/
def importedNames (text : List Char) : List String :=
  let foreign := (Import.all text).filter fun statement =>
    !Sandbox.runtimeModules.contains statement.module
  Text.distinct ((foreign.flatMap Import.names).filter startsUpperCase)

/-- The stub of one named specifier of a module with the given stand-ins. -/
def libraryStub? (module : String) (provided : List String) (specifier : List Char) :
    Option Stub :=
  let pieces := (Import.aliasMark.cut (Text.trim isBlank specifier)).map String.ofList
  let binding := pieces.headD ""
  let name := pieces.getLastD ""
  if provided.contains binding && Stub.isIdentifier name then
    some ⟨name, .library, Stub.libraryBinding name module (some binding)⟩
  else none

def namedLibraryStubs (found : Match) : List Stub :=
  let module := String.ofList (found.group 1)
  match Sandbox.libraryExports? module with
  | some provided =>
      (Text.cut (· == ',') (found.group 0)).filterMap (libraryStub? module provided)
  | none => []

def namespaceLibraryStub? (found : Match) : Option Stub :=
  let name := String.ofList (found.group 0)
  let module := String.ofList (found.group 1)
  if (Sandbox.libraryExports? module).isSome then
    some ⟨name, .library, Stub.libraryBinding name module none⟩
  else none

/-- Keeps the first stub of each name. -/
def firstOfEachName (stubs : List Stub) : List Stub :=
  stubs.foldl
    (fun kept stub => if kept.any (·.name == stub.name) then kept else kept ++ [stub]) []

def libraryStubs (text : List Char) : List Stub :=
  firstOfEachName ((namedImport.findAll text).flatMap namedLibraryStubs ++
    (namespaceImport.findAll text).filterMap namespaceLibraryStub?)

end Source

/-- The stubs of a source so far, with the registry they came from and the names that have none. -/
structure Synthesis where
  registry : Registry
  stubs : List Stub
  failures : List (String × Refusal)
  deriving DecidableEq, Repr

namespace Synthesis

/-- Takes up a name, unless the source or the runtime binds it. -/
def take (bound : List String) (synthesis : Synthesis) (name : String) (origin : StubOrigin) :
    Synthesis :=
  if bound.contains name || Sandbox.runtimeBindings.contains name then synthesis
  else
    match synthesis.registry.resolve name origin with
    | (registry, .ok stub) =>
        { synthesis with
          registry
          stubs := if synthesis.stubs.contains stub then synthesis.stubs
            else synthesis.stubs ++ [stub] }
    | (registry, .error refusal) =>
        { synthesis with registry, failures := synthesis.failures ++ [(name, refusal)] }

def takeAll (bound : List String) (origin : StubOrigin) (names : List String)
    (synthesis : Synthesis) : Synthesis :=
  names.foldl (fun synthesis name => synthesis.take bound name origin) synthesis

def ofText (text : List Char) (seeded : List String) (registry : Registry) : Synthesis :=
  let declared := Source.declaredNames text
  let library := (Source.libraryStubs text).filter fun stub => !declared.contains stub.name
  let bound := declared ++ library.map Stub.name
  takeAll bound .markup (Source.markupNames text)
    (takeAll bound .imported (Source.importedNames text)
      (takeAll bound .seeded seeded ⟨registry, library, []⟩))

end Synthesis

def undefinedSymbol : Pattern := .capture .name ++ .lit " is not defined"

/-- The symbol that an error message reports as not defined. -/
def undefinedSymbol? (message : List Char) : Option String :=
  (undefinedSymbol.first? message).map fun found => String.ofList (found.group 0)

end ComponentPreview
