import ComponentPreview.Json.Display
import ComponentPreview.Text.Basic
import ComponentPreview.Text.Utf8

/-!
# Source files

A file is read as UTF-8, and every kind of line break is read as one line feed. Empty segments and
those for the place itself are dropped from a path.
-/

namespace ComponentPreview

structure File where
  name : String
  /-- When it was last written, in microseconds. -/
  written : Int
  content : List UInt8
  deriving DecidableEq, Repr

namespace File

def canonicalPath (path : String) : String :=
  let segments := (Text.cut (· == '/') path.toList).filter fun segment =>
    !segment.isEmpty && segment != ['.']
  let root := match path.toList with
    | '/' :: '/' :: '/' :: _ => "/"
    | '/' :: '/' :: _ => "//"
    | '/' :: _ => "/"
    | _ => ""
  let text := root ++ String.ofList (Text.join ['/'] segments)
  if text.isEmpty then "." else text

def unifyLineBreaks : List Char → List Char
  | '\r' :: '\n' :: rest => '\n' :: unifyLineBreaks rest
  | '\r' :: rest => '\n' :: unifyLineBreaks rest
  | c :: rest => c :: unifyLineBreaks rest
  | [] => []

/-- Why there is no text at a path. -/
inductive Fault
  | missing (path : String)
  | undecodable (fault : Utf8.Fault)
  | directory (path : String)
  | belowFile (path : String)
  | nameTooLong (path : String)
  | nullByte
  deriving DecidableEq, Repr

namespace Fault

def message : Fault → String
  | missing path => "[Errno 2] No such file or directory: " ++ Json.inspectText path.toList
  | undecodable fault => fault.message
  | directory path => "[Errno 21] Is a directory: " ++ Json.inspectText path.toList
  | belowFile path => "[Errno 20] Not a directory: " ++ Json.inspectText path.toList
  | nameTooLong path => "[Errno 36] File name too long: " ++ Json.inspectText path.toList
  | nullByte => "embedded null byte"

/-- Whether the program tells of a fault and goes on. -/
def isReported : Fault → Bool
  | missing _ | undecodable _ => true
  | _ => false

end Fault

def segments (path : String) : List (List Char) :=
  Text.cut (· == '/') path.toList

/-- Whether a path leads to a directory wherever the program runs, or above one of the files. -/
def isDirectory (path : String) (files : List File) : Bool :=
  (segments path).all (fun segment => segment.isEmpty || segment = ['.'] || segment = ['.', '.']) ||
    files.any fun file => Text.startsWith file.name.toList (path ++ "/")

/-- What is found at a path. -/
def locate (path : String) (files : List File) : Except Fault File :=
  match files.find? (·.name == path) with
  | some file => .ok file
  | none => .error (
      if path.contains '\x00' then .nullByte
      else if files.any fun file => Text.startsWith path.toList (file.name ++ "/") then
        .belowFile path
      else if isDirectory path files then .directory path
      else if (segments path).any fun segment => 255 < (Utf8.encode segment).length then
        .nameTooLong path
      else .missing path)

/-- The text of a file, with its line breaks unified. -/
def text (file : File) : Except Fault String :=
  match Utf8.decode file.content with
  | .ok text => .ok (String.ofList (unifyLineBreaks text))
  | .error fault => .error (.undecodable fault)

def read (path : String) (files : List File) : Except Fault String := do
  (← locate path files).text

def refusal (path : String) (fault : Fault) : String :=
  "  Error: cannot read " ++ path ++ ": " ++ fault.message ++ "\n"

/-- Writes a file in place of one of the same name. -/
def write (file : File) (files : List File) : List File :=
  files.filter (·.name != file.name) ++ [file]

end File

end ComponentPreview
