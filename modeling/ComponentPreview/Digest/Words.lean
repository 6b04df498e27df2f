/-!
# Bytes and words of a digest

A message is closed by the byte `0x80`, zeros and its length in bits, so that it fills whole blocks
of sixty-four bytes, and each block is read as sixteen words.
-/

namespace ComponentPreview.Digest

inductive ByteOrder
  | bigEndian
  | littleEndian
  deriving DecidableEq, Repr

/-- The bytes of `n`, the lowest first. -/
def lowBytes : Nat → Nat → List UInt8
  | 0, _ => []
  | count + 1, n => n.toUInt8 :: lowBytes count (n / 256)

def ByteOrder.bytes (order : ByteOrder) (count n : Nat) : List UInt8 :=
  match order with
  | .littleEndian => lowBytes count n
  | .bigEndian => (lowBytes count n).reverse

def close (order : ByteOrder) (message : ByteArray) : ByteArray :=
  let fill := (119 - message.size % 64) % 64
  let tail := 0x80 :: (List.replicate fill 0 ++ order.bytes 8 (8 * message.size))
  tail.foldl ByteArray.push message

def byteAt (message : ByteArray) (index : Nat) : UInt32 :=
  match message[index]? with
  | some byte => byte.toUInt32
  | none => 0

def wordAt (order : ByteOrder) (message : ByteArray) (index : Nat) : UInt32 :=
  let a := byteAt message index
  let b := byteAt message (index + 1)
  let c := byteAt message (index + 2)
  let d := byteAt message (index + 3)
  match order with
  | .bigEndian => a <<< 24 ||| b <<< 16 ||| c <<< 8 ||| d
  | .littleEndian => d <<< 24 ||| c <<< 16 ||| b <<< 8 ||| a

def blockAt (order : ByteOrder) (message : ByteArray) (block : Nat) : Array UInt32 :=
  (Array.range 16).map fun word => wordAt order message (64 * block + 4 * word)

def rotateLeft (word : UInt32) (count : UInt32) : UInt32 :=
  word <<< count ||| word >>> (32 - count)

def rotateRight (word : UInt32) (count : UInt32) : UInt32 :=
  word >>> count ||| word <<< (32 - count)

def hexDigit (n : UInt8) : Char :=
  Nat.digitChar n.toNat

def hex (bytes : List UInt8) : String :=
  String.ofList (bytes.flatMap fun (byte : UInt8) =>
    [hexDigit (byte >>> 4), hexDigit (byte &&& 15)])

end ComponentPreview.Digest
