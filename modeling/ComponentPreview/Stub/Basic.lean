import ComponentPreview.Json.Printer
import ComponentPreview.Sandbox.Bindings
import ComponentPreview.Source.Basic

/-!
# Stubs

A stub is a statement that binds a name before the submitted script runs. The registry of a session
holds one stub for each name, in the order of registration: the first registration of a name wins.
Resolving a name gives its registered stub or registers a placeholder.
-/

namespace ComponentPreview

inductive StubOrigin
  | imported
  | markup
  | runtime
  | seeded
  | library
  deriving DecidableEq, Repr

def StubOrigin.label : StubOrigin → String
  | imported => "import"
  | markup => "markup"
  | runtime => "runtime"
  | seeded => "seeded"
  | library => "library"

structure Stub where
  name : String
  origin : StubOrigin
  definition : String
  deriving DecidableEq, Repr

namespace Stub

def encode (stub : Stub) : Json :=
  .obj [("name", .str stub.name), ("origin", .str stub.origin.label),
    ("definition", .str stub.definition)]

/-- Binds a name to a visible placeholder, unless the window already defines it. -/
def placeholder (name : String) : String :=
  let literal := Json.literal name
  "if (!(" ++ literal ++ " in window)) window[" ++ literal ++ "] = __previewStub(" ++ literal ++
    ");"

/-- Binds a name to a stand-in for an export of a module, or for the whole module. -/
def libraryBinding (name module : String) (export? : Option String) : String :=
  let arguments := match export? with
    | none => Json.literal module
    | some binding => Json.literal module ++ ", " ++ Json.literal binding
  "window[" ++ Json.literal name ++ "] = __previewLibrary(" ++ arguments ++ ");"

/-- An identifier, where one line break may follow. -/
def identifier : Pattern := Pattern.name ++ .textEnd

def isIdentifier (name : String) : Bool :=
  (identifier.opening? name.toList).isSome

end Stub

structure Registry where
  stubs : List Stub := []
  deriving DecidableEq, Repr

/-- Why a name has no stub. -/
inductive Refusal
  | notIdentifier
  | boundByRuntime
  deriving DecidableEq, Repr

def Refusal.reason : Refusal → String
  | notIdentifier => "not a valid identifier"
  | boundByRuntime => "bound by the sandbox runtime"

namespace Registry

def empty : Registry := {}

def find? (registry : Registry) (name : String) : Option Stub :=
  registry.stubs.find? (·.name == name)

def contains (registry : Registry) (name : String) : Bool :=
  (registry.find? name).isSome

def names (registry : Registry) : List String :=
  registry.stubs.map Stub.name

def size (registry : Registry) : Nat :=
  registry.stubs.length

/-- Registers a stub unless its name is taken, and answers the one now registered. -/
def add (registry : Registry) (stub : Stub) : Registry × Stub :=
  match registry.find? stub.name with
  | some kept => (registry, kept)
  | none => (⟨registry.stubs ++ [stub]⟩, stub)

def resolve (registry : Registry) (name : String) (origin : StubOrigin) :
    Registry × Except Refusal Stub :=
  match registry.find? name with
  | some stub => (registry, .ok stub)
  | none =>
      if !Stub.isIdentifier name then (registry, .error .notIdentifier)
      else if Sandbox.runtimeBindings.contains name then (registry, .error .boundByRuntime)
      else
        let added := registry.add ⟨name, origin, Stub.placeholder name⟩
        (added.1, .ok added.2)

theorem add_of_find? {registry : Registry} {stub kept : Stub}
    (h : registry.find? stub.name = some kept) : registry.add stub = (registry, kept) := by
  simp [add, h]

theorem find?_add_self (registry : Registry) (stub : Stub) :
    (registry.add stub).1.find? stub.name = some (registry.add stub).2 := by
  unfold add
  split
  case h_1 kept h => exact h
  case h_2 h =>
      simp only [find?] at h ⊢
      simp [List.find?_append, h]

end Registry

end ComponentPreview
