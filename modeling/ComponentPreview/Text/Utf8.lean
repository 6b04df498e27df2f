import ComponentPreview.Json.Printer

/-!
# Texts from bytes

Bytes are decoded as UTF-8. A fault names the bytes from the start of a character up to the first
that cannot continue it, and the reason.
-/

namespace ComponentPreview.Utf8

inductive Reason
  | startByte
  | continuationByte
  | endOfData
  deriving DecidableEq, Repr

def Reason.label : Reason → String
  | startByte => "invalid start byte"
  | continuationByte => "invalid continuation byte"
  | endOfData => "unexpected end of data"

/-- A fault: how many bytes before it and in it, and its first byte. -/
structure Fault where
  offset : Nat
  size : Nat
  byte : UInt8
  reason : Reason
  deriving DecidableEq, Repr

def Fault.message (fault : Fault) : String :=
  (if fault.size = 1 then
    "'utf-8' codec can't decode byte 0x" ++ Json.hexDigits 2 fault.byte.toNat ++ " in position " ++
      toString fault.offset
  else
    "'utf-8' codec can't decode bytes in position " ++ toString fault.offset ++ "-" ++
      toString (fault.offset + fault.size - 1)) ++
  ": " ++ fault.reason.label

def isContinuation (byte : UInt8) : Bool :=
  0x80 ≤ byte && byte < 0xc0

/-- How many bytes follow a first byte, if it is one. -/
def following? (byte : UInt8) : Option Nat :=
  if byte < 0x80 then some 0
  else if byte < 0xc2 then none
  else if byte < 0xe0 then some 1
  else if byte < 0xf0 then some 2
  else if byte < 0xf5 then some 3
  else none

/-- Whether a second byte may follow a first: it must not make an overlong form, a surrogate or a
number too large. -/
def mayFollow (first second : UInt8) : Bool :=
  isContinuation second &&
    (first != 0xe0 || 0xa0 ≤ second) && (first != 0xed || second < 0xa0) &&
    (first != 0xf0 || 0x90 ≤ second) && (first != 0xf4 || second < 0x90)

/-- The leading bits of a first byte that `following` bytes continue. -/
def leading (first : UInt8) (following : Nat) : Nat :=
  match following with
  | 0 => first.toNat
  | 1 => first.toNat % 0x20
  | 2 => first.toNat % 0x10
  | _ => first.toNat % 8

/-- The bytes after a first byte that continue it, at most `count`. -/
def continuing (first : UInt8) (count : Nat) (rest : List UInt8) : List UInt8 :=
  match count, rest with
  | count + 1, second :: rest =>
      if mayFollow first second then second :: (rest.take count).takeWhile isContinuation else []
  | _, _ => []

/-- The first character, or the size and reason of the fault that stands in its place. -/
def first (byte : UInt8) (rest : List UInt8) : Except (Nat × Reason) (Nat × Char) :=
  match following? byte with
  | none => .error (1, .startByte)
  | some count =>
      let tail := continuing byte count rest
      if tail.length = count then
        .ok (count + 1, Char.ofNat
          (tail.foldl (fun value next => value * 0x40 + next.toNat % 0x40) (leading byte count)))
      else if tail.length = rest.length then .error (tail.length + 1, .endOfData)
      else .error (tail.length + 1, .continuationByte)

/-- Decodes bytes from an offset on. `skip` bytes of the last character are still to come, and what
is decoded stands in reverse. -/
def decodeFrom (offset skip : Nat) (done : List Char) : List UInt8 → Except Fault (List Char)
  | [] => .ok done.reverse
  | byte :: rest =>
      match skip with
      | skip + 1 => decodeFrom (offset + 1) skip done rest
      | 0 =>
          match first byte rest with
          | .ok (size, c) => decodeFrom (offset + 1) (size - 1) (c :: done) rest
          | .error (size, reason) => .error ⟨offset, size, byte, reason⟩

def decode (bytes : List UInt8) : Except Fault (List Char) :=
  decodeFrom 0 0 [] bytes

/-- Decodes bytes with a replacement character for each fault. -/
def decodeAnyFrom (skip : Nat) (done : List Char) : List UInt8 → List Char
  | [] => done.reverse
  | byte :: rest =>
      match skip with
      | skip + 1 => decodeAnyFrom skip done rest
      | 0 =>
          match first byte rest with
          | .ok (size, c) => decodeAnyFrom (size - 1) (c :: done) rest
          | .error (size, _) => decodeAnyFrom (size - 1) ('\ufffd' :: done) rest

def decodeAny (bytes : List UInt8) : List Char :=
  decodeAnyFrom 0 [] bytes

def encode (text : List Char) : List UInt8 :=
  text.flatMap String.utf8EncodeChar

end ComponentPreview.Utf8
