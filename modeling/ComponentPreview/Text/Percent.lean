import ComponentPreview.Json.Reader
import ComponentPreview.Text.Utf8

/-!
# Texts inside addresses

Bytes that may not stand in an address are written as a percent sign and two hexadecimal digits.
-/

namespace ComponentPreview.Percent

/-- The bytes that a text stands for; a percent sign without two digits stands for itself. -/
def bytes : List Char → List UInt8
  | [] => []
  | '%' :: a :: b :: rest =>
      match Json.hexValue? a, Json.hexValue? b with
      | some high, some low => (16 * high + low).toUInt8 :: bytes rest
      | _, _ => 0x25 :: bytes (a :: b :: rest)
  | c :: rest => String.utf8EncodeChar c ++ bytes rest

def decode (text : List Char) : List Char :=
  Utf8.decodeAny (bytes text)

/-- Whether a byte stands for itself everywhere. -/
def isUnreserved (byte : UInt8) : Bool :=
  let c := Char.ofNat byte.toNat
  byte < 0x80 && (c.isAlphanum || c == '-' || c == '.' || c == '_' || c == '~')

def encodeByte (keeps : UInt8 → Bool) (byte : UInt8) : List Char :=
  if keeps byte then [Char.ofNat byte.toNat]
  else '%' :: ((Json.hexDigits 2 byte.toNat).toList.map Char.toUpper)

/-- Writes a text with every byte escaped that `keeps` does not spare. -/
def encode (keeps : UInt8 → Bool) (text : List Char) : List Char :=
  (Utf8.encode text).flatMap (encodeByte keeps)

end ComponentPreview.Percent
