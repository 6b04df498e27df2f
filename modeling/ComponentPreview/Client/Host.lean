import ComponentPreview.Json.Display
import ComponentPreview.Text.Integer
import ComponentPreview.Text.Pattern
import ComponentPreview.Text.Percent
import ComponentPreview.Text.Punycode
import ComponentPreview.Unicode.Label
import ComponentPreview.Unicode.Lower

/-!
# Hosts

A host is four numbers between dots, up to eight groups in brackets, or a name. Names are written in
lower case. One in ASCII has what may not stand in it escaped; any other is cut into labels, and
those that are not in ASCII are written in Punycode.
-/

namespace ComponentPreview

inductive HostError
  | numbers (host : List Char)
  | groups (host : List Char)
  | name (host : List Char)
  deriving DecidableEq, Repr

def HostError.message : HostError → String
  | numbers host => "Invalid IPv4 address: " ++ Json.inspectText host
  | groups host => "Invalid IPv6 address: " ++ Json.inspectText host
  | name host => "Invalid IDNA hostname: " ++ Json.inspectText host

/-- A text before and after the first of a character, if there is one. -/
def Text.halves (c : Char) (text : List Char) : List Char × Option (List Char) :=
  match text.dropWhile (· != c) with
  | [] => (text, none)
  | _ :: after => (text.takeWhile (· != c), some after)

/-- Whether a byte is printable ASCII and none of some characters. -/
def Percent.sparesBut (refused : List Char) (byte : UInt8) : Bool :=
  0x20 < byte && byte < 0x7f && !refused.contains (Char.ofNat byte.toNat)

namespace Host

/-! ## Numbers -/

/-- Four numbers with any character between them: no name looks like that. -/
def numbersLike : Pattern :=
  let number := Pattern.oneOrMore Char.isDigit
  let any := Pattern.one fun _ => true
  number ++ any ++ number ++ any ++ number ++ any ++ number ++ .lastEnd

def isByte (part : List Char) : Bool :=
  part.all Char.isDigit && !part.isEmpty && part.length ≤ 3 &&
    (part.length = 1 || part.head? != some '0') && (Text.readSize? part).any (· ≤ 255)

def isNumbers (host : List Char) : Bool :=
  let parts := Text.cut (· == '.') host
  parts.length = 4 && parts.all isByte

/-! ## Groups -/

def isGroup (part : List Char) : Bool :=
  !part.isEmpty && part.length ≤ 4 && part.all fun c => (Json.hexValue? c).isSome

/-- The groups beside a gap, of which there may be none. -/
def beside (side : List (List Char)) : List (List Char) :=
  if side = [[]] then [] else side

/-- Whether parts are eight groups, or fewer with one gap. -/
def areGroups (parts : List (List Char)) : Bool :=
  match parts with
  | first :: others =>
      let inner := others.dropLast
      let groups := beside (first :: inner.takeWhile (· != [])) ++
        beside ((inner.dropWhile (· != [])).drop 1 ++ others.getLast?.toList)
      match inner.count [] with
      | 0 => parts.length = 8 && parts.all isGroup
      | 1 => groups.length ≤ 7 && groups.all isGroup
      | _ => false
  | [] => false

/-- The parts of an address between colons; four numbers at its end stand for two groups. -/
def groupsOf (text : List Char) : List (List Char) :=
  let parts := Text.cut (· == ':') text
  match parts.getLast? with
  | some last => if isNumbers last then parts.dropLast ++ [['0'], ['0']] else parts
  | none => parts

/-- Whether a text is an address of groups, perhaps with a zone. -/
def isGroups (text : List Char) : Bool :=
  let (address, zone) := Text.halves '%' text
  zone.all (fun zone => !zone.isEmpty && !zone.contains '%') && !text.contains '/' &&
    2 ≤ address.count ':' && areGroups (groupsOf address)

def isBracketed (host : List Char) : Bool :=
  host.head? == some '[' && host.getLast? == some ']' && 2 ≤ host.length

/-! ## Names -/

def escapeName (name : List Char) : List Char :=
  Percent.encode (Percent.sparesBut ['#', '/', ':', '<', '>', '?', '@', '[', ']', '^']) name

/-- Begins a label that stands for one that is not in ASCII. -/
def labelMark : List Char :=
  "xn--".toList

def isLabel (label : List Char) : Bool :=
  let isMarked := label.all Punycode.isAscii && labelMark.isPrefixOf label
  label.all isLabelChar && !label.isEmpty && label.head? != some '-' &&
    label.getLast? != some '-' && (isMarked || (label.drop 2).take 2 != ['-', '-'])

/-- A label in ASCII. -/
def writeLabel? (label : List Char) : Option (List Char) :=
  let written := if label.all Punycode.isAscii then label else labelMark ++ Punycode.encode label
  if isLabel label && written.length ≤ 63 then some written else none

def isLabelEnd (c : Char) : Bool :=
  c == '.' || c == '\u3002' || c == '\uff0e' || c == '\uff61'

/-- A name in ASCII. It may end with a dot. -/
def writeName? (name : List Char) : Option (List Char) := do
  let labels := Text.cut isLabelEnd name
  let isRooted := labels.getLast? == some []
  let written ← (if isRooted then labels.dropLast else labels).mapM writeLabel?
  let whole := Text.join ['.'] written
  if whole.length ≤ 253 then some (if isRooted then whole ++ ['.'] else whole) else none

/-- Reads a host and writes it as addresses have it. -/
def canonical (host : List Char) : Except HostError (List Char) :=
  if (numbersLike.opening? host).isSome then
    if isNumbers host then .ok host else .error (.numbers host)
  else if isBracketed host then
    if isGroups host.tail.dropLast then .ok host else .error (.groups host)
  else if host.all Punycode.isAscii then .ok (escapeName (host.map Char.toLower))
  else
    match writeName? (Text.lower host) with
    | some name => .ok name
    | none => .error (.name host)

end Host

end ComponentPreview
