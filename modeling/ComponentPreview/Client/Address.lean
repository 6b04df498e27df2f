import ComponentPreview.Client.Host

/-!
# Addresses of requests

A request goes to a path under the address of a service. Scheme and host are written in lower case,
a port that the scheme implies is left out, dot segments are resolved, and what may not stand in a
part is escaped. The fragment of the service's address stays.
-/

namespace ComponentPreview

structure Address where
  scheme : List Char
  user : List Char
  host : List Char
  port : Option Int
  path : List Char
  query : Option (List Char)
  fragment : Option (List Char)
  deriving DecidableEq, Repr

inductive AddressError
  /-- The whole address is too long, or a part of it. -/
  | tooLong (part : Option String)
  | control (c : Char) (offset : Nat)
  | port (text : List Char)
  | host (error : HostError)
  | leadingSlashes
  | leadingColon
  deriving DecidableEq, Repr

def AddressError.message : AddressError → String
  | tooLong none => "URL too long"
  | tooLong (some part) => "URL component '" ++ part ++ "' too long"
  | control c offset =>
      "Invalid non-printable ASCII character in URL, " ++ Json.inspectText [c] ++ " at position " ++
        toString offset ++ "."
  | port text => "Invalid port: " ++ Json.inspectText text
  | host error => error.message
  | leadingSlashes => "Relative URLs cannot have a path starting with '//'"
  | leadingColon => "Relative URLs cannot have a path starting with ':'"

namespace Address

/-! ## Parts -/

/-- The parts of an address as they were given. -/
structure Parts where
  scheme : List Char
  user : List Char
  host : List Char
  port : Option (List Char)
  path : List Char
  query : Option (List Char)
  fragment : Option (List Char)

def isSchemeChar (c : Char) : Bool :=
  c.isAlphanum || c == '+' || c == '.' || c == '-'

/-- The scheme of an address and what follows its colon. -/
def splitScheme (text : List Char) : List Char × List Char :=
  match Text.halves ':' text with
  | (scheme, some rest) =>
      if scheme.head?.all Char.isAlpha && scheme.all isSchemeChar then (scheme, rest)
      else ([], text)
  | (_, none) => ([], text)

/-- The authority of an address, after two slashes, and what follows it. -/
def splitAuthority : List Char → List Char × List Char
  | '/' :: '/' :: rest =>
      let isInside (c : Char) : Bool := c != '/' && c != '?'
      (rest.takeWhile isInside, rest.dropWhile isInside)
  | rest => ([], rest)

/-- What stands before the last of a character, if there is one, and what follows it. -/
def splitLast (c : Char) (text : List Char) : Option (List Char) × List Char :=
  match Text.halves c text.reverse with
  | (after, some before) => (some before.reverse, after.reverse)
  | (_, none) => (none, text)

/-- The host of an authority and what follows it. Colons may stand in brackets. -/
def splitHost (text : List Char) : List Char × List Char :=
  match text, splitLast ']' text with
  | '[' :: _, (some inside, rest) => (inside ++ [']'], rest)
  | _, _ => (text.takeWhile (· != ':'), text.dropWhile (· != ':'))

def Parts.ofText (text : List Char) : Parts :=
  let (whole, fragment) := Text.halves '#' text
  let (scheme, rest) := splitScheme whole
  let (authority, rest) := splitAuthority rest
  let (path, query) := Text.halves '?' rest
  let (user, place) := splitLast '@' authority
  let (host, port) := splitHost place
  let port := if port.head? = some ':' then port.tail else port
  { scheme, user := user.getD [], host, port := if port.isEmpty then none else some port, path,
    query, fragment }

/-! ## What stands in an address -/

def escape (refused text : List Char) : List Char :=
  Percent.encode (Percent.sparesBut refused) text

def refusedInQuery : List Char := ['"', '#', '<', '>']

def refusedInFragment : List Char := ['"', '<', '>', '\x60']

def refusedInPath : List Char := refusedInQuery ++ ['?', '\x60', '\x7b', '\x7d']

def refusedInUser : List Char :=
  refusedInPath ++ ['/', ';', '=', '@', '[', '\\', ']', '^', '|']

def impliedPorts : List (String × Int) :=
  [("ftp", 21), ("http", 80), ("https", 443), ("ws", 80), ("wss", 443)]

/-- The number of a port, unless the scheme implies it. -/
def readPort (scheme text : List Char) : Except AddressError (Option Int) :=
  match Text.readInteger? text with
  | none => .error (.port text)
  | some number =>
      .ok (if impliedPorts.contains (String.ofList scheme, number) then none else some number)

/-- Drops the segments that stand for the place itself or the one above. -/
def resolveDots (path : List Char) : List Char :=
  Text.join ['/'] ((Text.cut (· == '/') path).foldl
    (fun kept segment =>
      if segment = ['.'] then kept
      else if segment = ['.', '.'] then
        if kept = [[]] then kept else kept.dropLast
      else kept ++ [segment])
    [])

/-- Writes each part as addresses have it. -/
def Parts.canonical (parts : Parts) : Except AddressError Address := do
  let user := escape refusedInUser parts.user
  let host ← (Host.canonical parts.host).mapError .host
  let port ← match parts.port with
    | none => .ok none
    | some text => readPort parts.scheme text
  let isPlaced := !parts.scheme.isEmpty || !user.isEmpty || !host.isEmpty || port.isSome
  if !isPlaced && "//".toList.isPrefixOf parts.path then throw .leadingSlashes
  if !isPlaced && parts.path.head? = some ':' then throw .leadingColon
  let path := if isPlaced then resolveDots parts.path else parts.path
  return {
    scheme := parts.scheme.map Char.toLower, user, host, port
    path := escape refusedInPath path
    query := parts.query.map (escape refusedInQuery)
    fragment := parts.fragment.map (escape refusedInFragment) }

/-! ## Reading and writing -/

/-- No address and no part of one is longer. -/
def maxLength : Nat := 65536

def isControl (c : Char) : Bool :=
  c.toNat < 0x20 || c.toNat = 0x7f

def ofText (text : List Char) : Except AddressError Address :=
  if maxLength < text.length then .error (.tooLong none)
  else
    match text.dropWhile (!isControl ·) with
    | c :: _ => .error (.control c (text.takeWhile (!isControl ·)).length)
    | [] => (Parts.ofText text).canonical

def authority (address : Address) : List Char :=
  (if address.user.isEmpty then [] else address.user ++ ['@']) ++ address.host ++
    match address.port with
    | none => []
    | some port => ':' :: (toString port).toList

def marked (mark : Char) : Option (List Char) → List Char
  | none => []
  | some text => mark :: text

/-- What a request asks for: the path and the query. -/
def target (address : Address) : List Char :=
  (if address.path.isEmpty then ['/'] else address.path) ++ marked '?' address.query

def toText (address : Address) : List Char :=
  (if address.scheme.isEmpty then [] else address.scheme ++ [':']) ++
    (if address.authority.isEmpty then [] else '/' :: '/' :: address.authority) ++
    address.path ++ marked '?' address.query ++ marked '#' address.fragment

/-- The same place with another target. -/
def withTarget (address : Address) (target : List Char) : Except AddressError Address := do
  let (path, query) := Text.halves '?' target
  let parts := [("scheme", address.scheme), ("authority", address.authority), ("path", path),
    ("query", query.getD []), ("fragment", address.fragment.getD [])]
  match parts.find? fun (_, text) => maxLength < text.length with
  | some (name, _) => throw (.tooLong (some name))
  | none =>
      Parts.canonical { address with
        port := address.port.map fun port => (toString port).toList
        path, query }

/-- The address as one under which targets are found: its own target ends with a slash. -/
def asBase (address : Address) : Except AddressError Address :=
  if address.target.getLast? = some '/' then .ok address
  else address.withTarget (address.target ++ ['/'])

/-- The address under a base with a target of its own, whose fragment is dropped. -/
def under (base : Address) (target : List Char) : Except AddressError Address := do
  let below ← ofText target
  base.withTarget (base.target ++ Text.trimStart (· == '/') below.target)

/-- An address as services are named, without slashes at its end. -/
def withoutSlashes (url : String) : String :=
  String.ofList (Text.trimEnd (· == '/') url.toList)

end Address

end ComponentPreview
