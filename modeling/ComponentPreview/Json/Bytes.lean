import ComponentPreview.Json.Reader
import ComponentPreview.Text.Utf8

/-!
# JSON in bytes

The encoding of a JSON text is told from its first bytes: a byte order mark, or else where its zero
bytes stand. Surrogates that stand alone are read as replacement characters.
-/

namespace ComponentPreview.Json

inductive Encoding
  | utf8
  | utf16 (bigEndian : Bool)
  | utf32 (bigEndian : Bool)
  deriving DecidableEq, Repr

/-- The encoding of bytes without a byte order mark. -/
def Encoding.ofZeros : List UInt8 → Encoding
  | a :: b :: c :: d :: _ =>
      if a = 0 then if b = 0 then .utf32 true else .utf16 true
      else if b = 0 then if c = 0 && d = 0 then .utf32 false else .utf16 false
      else .utf8
  | [a, b] => if a = 0 then .utf16 true else if b = 0 then .utf16 false else .utf8
  | _ => .utf8

/-- The encoding of bytes and what follows their byte order mark. -/
def Encoding.detect : List UInt8 → Encoding × List UInt8
  | 0x00 :: 0x00 :: 0xfe :: 0xff :: rest => (.utf32 true, rest)
  | 0xff :: 0xfe :: 0x00 :: 0x00 :: rest => (.utf32 false, rest)
  | 0xfe :: 0xff :: rest => (.utf16 true, rest)
  | 0xff :: 0xfe :: rest => (.utf16 false, rest)
  | 0xef :: 0xbb :: 0xbf :: rest => (.utf8, rest)
  | bytes => (.ofZeros bytes, bytes)

/-- Puts a replacement character for each surrogate in UTF-8. -/
def replaceSurrogates : List UInt8 → List UInt8
  | 0xed :: second :: third :: rest =>
      if 0xa0 ≤ second && second < 0xc0 && Utf8.isContinuation third then
        0xef :: 0xbf :: 0xbd :: replaceSurrogates rest
      else 0xed :: replaceSurrogates (second :: third :: rest)
  | byte :: rest => byte :: replaceSurrogates rest
  | [] => []

def units16? (bigEndian : Bool) : List UInt8 → Option (List Nat)
  | [] => some []
  | [_] => none
  | a :: b :: rest =>
      let unit := if bigEndian then a.toNat * 0x100 + b.toNat else b.toNat * 0x100 + a.toNat
      (units16? bigEndian rest).map (unit :: ·)

/-- The characters of code units; `high` is a high surrogate before them. -/
def ofUnits16 : Option Nat → List Nat → List Char
  | none, [] => []
  | some _, [] => ['\ufffd']
  | high, unit :: rest =>
      (addUnit high [] unit).2.reverse ++ ofUnits16 (addUnit high [] unit).1 rest

def characters32? (bigEndian : Bool) : List UInt8 → Option (List Char)
  | [] => some []
  | a :: b :: c :: d :: rest =>
      let digits := [a, b, c, d].map UInt8.toNat
      let value := (if bigEndian then digits else digits.reverse).foldl (0x100 * · + ·) 0
      if 0x110000 ≤ value then none
      else
        let c := if 0xd800 ≤ value ∧ value < 0xe000 then '\ufffd' else Char.ofNat value
        (characters32? bigEndian rest).map (c :: ·)
  | _ => none

/-- The text in bytes, if they hold one. -/
def textOfBytes? (bytes : List UInt8) : Option (List Char) :=
  match Encoding.detect bytes with
  | (.utf8, rest) =>
      match Utf8.decode (replaceSurrogates rest) with
      | .ok text => some text
      | .error _ => none
  | (.utf16 bigEndian, rest) => (units16? bigEndian rest).map (ofUnits16 none)
  | (.utf32 bigEndian, rest) => characters32? bigEndian rest

/-- What keeps bytes from being read: they are no text, or their text is not JSON. -/
inductive ByteFault
  | encoding
  | content (fault : Fault)
  deriving DecidableEq, Repr

/-- Whether the bytes hold a text that is not JSON. -/
def ByteFault.isMalformed : ByteFault → Bool
  | encoding => false
  | content fault => !fault.isExcess

/-- Whether the bytes hold a text that is nested too deeply. -/
def ByteFault.isTooDeep : ByteFault → Bool
  | encoding => false
  | content fault => fault.isTooDeep

def readBytes (bytes : List UInt8) : Except ByteFault Json :=
  match textOfBytes? bytes with
  | none => .error .encoding
  | some text =>
      match readText text with
      | .ok value => .ok value
      | .error error => .error (.content error.fault)

end ComponentPreview.Json
