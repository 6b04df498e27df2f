import ComponentPreview.Json.Value
import ComponentPreview.Text.Basic

/-!
# Command line arguments

Arguments are read from left to right. The first command word is the command and the first word
after it that is no option is the path; a switch may come anywhere and any number of times, and of
several values of one option the last counts.
-/

namespace ComponentPreview

inductive Command
  | watch
  | render
  deriving DecidableEq, Repr

def Command.ofWord? : String → Option Command
  | "watch" => some .watch
  | "render" => some .render
  | _ => none

/-- What a preview may show on top of the component. -/
inductive Overlay
  | debug
  | performance
  | accessibility
  | info
  deriving DecidableEq, Repr

namespace Overlay

def label : Overlay → String
  | debug => "debug"
  | performance => "performance"
  | accessibility => "accessibility"
  | info => "info"

def all : List Overlay :=
  [debug, performance, accessibility, info]

def ofFlag? (word : String) : Option Overlay :=
  all.find? fun overlay => "--" ++ overlay.label == word

end Overlay

structure Arguments where
  command : Option Command := none
  path : Option String := none
  apiUrl : Option String := none
  session : Option String := none
  opensBrowser : Bool := true
  overlays : List Overlay := []
  showsHelp : Bool := false
  showsVersion : Bool := false
  deriving DecidableEq, Repr

inductive ArgumentError
  | missingUrl
  | missingSession
  | unknownOption (word : String)
  | unknownCommand (word : String)
  deriving DecidableEq, Repr

def ArgumentError.message : ArgumentError → String
  | missingUrl => "Error: --api-url requires a URL\n"
  | missingSession => "Error: --session requires an ID\n"
  | unknownOption word => "Unknown option: " ++ word ++ "\nRun 'preview --help' for usage.\n"
  | unknownCommand word => "Unknown command: " ++ word ++ "\nRun 'preview --help' for usage.\n"

namespace Arguments

def display (arguments : Arguments) (overlay : Overlay) : Arguments :=
  if arguments.overlays.contains overlay then arguments
  else { arguments with overlays := arguments.overlays ++ [overlay] }

/-- Takes a switch, if the word is one. -/
def switch? (arguments : Arguments) (word : String) : Option Arguments :=
  if word = "--no-browser" then some { arguments with opensBrowser := false }
  else if word = "--help" ∨ word = "-h" then some { arguments with showsHelp := true }
  else if word = "--version" ∨ word = "-v" then some { arguments with showsVersion := true }
  else (Overlay.ofFlag? word).map arguments.display

/-- Takes a word that is neither an option with a value nor a switch. -/
def place (arguments : Arguments) (word : String) : Except ArgumentError Arguments :=
  match arguments.command, Command.ofWord? word with
  | none, some command => .ok { arguments with command := some command }
  | command, _ =>
      if Text.startsWith word.toList "-" then .error (.unknownOption word)
      else if command.isSome && arguments.path.isNone then
        .ok { arguments with path := some word }
      else .error (.unknownCommand word)

def readFrom (arguments : Arguments) : List String → Except ArgumentError Arguments
  | [] => .ok arguments
  | word :: rest =>
      if word = "--api-url" then
        match rest with
        | [] => .error .missingUrl
        | url :: rest => readFrom { arguments with apiUrl := some url } rest
      else if word = "--session" then
        match rest with
        | [] => .error .missingSession
        | session :: rest => readFrom { arguments with session := some session } rest
      else
        match arguments.switch? word with
        | some arguments => readFrom arguments rest
        | none =>
            match arguments.place word with
            | .ok arguments => readFrom arguments rest
            | .error error => .error error

def read (words : List String) : Except ArgumentError Arguments :=
  readFrom {} words

/-- The switches of the overlays as options of a request. -/
def options (arguments : Arguments) : List (String × Json) :=
  arguments.overlays.map fun overlay => (overlay.label, .bool true)

end Arguments

end ComponentPreview
