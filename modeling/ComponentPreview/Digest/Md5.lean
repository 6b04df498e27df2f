import ComponentPreview.Digest.Words

/-!
# MD5
-/

namespace ComponentPreview.Digest.Md5

def constants : Array UInt32 := #[
    0xd76aa478, 0xe8c7b756, 0x242070db, 0xc1bdceee, 0xf57c0faf, 0x4787c62a,
    0xa8304613, 0xfd469501, 0x698098d8, 0x8b44f7af, 0xffff5bb1, 0x895cd7be,
    0x6b901122, 0xfd987193, 0xa679438e, 0x49b40821, 0xf61e2562, 0xc040b340,
    0x265e5a51, 0xe9b6c7aa, 0xd62f105d, 0x02441453, 0xd8a1e681, 0xe7d3fbc8,
    0x21e1cde6, 0xc33707d6, 0xf4d50d87, 0x455a14ed, 0xa9e3e905, 0xfcefa3f8,
    0x676f02d9, 0x8d2a4c8a, 0xfffa3942, 0x8771f681, 0x6d9d6122, 0xfde5380c,
    0xa4beea44, 0x4bdecfa9, 0xf6bb4b60, 0xbebfbc70, 0x289b7ec6, 0xeaa127fa,
    0xd4ef3085, 0x04881d05, 0xd9d4d039, 0xe6db99e5, 0x1fa27cf8, 0xc4ac5665,
    0xf4292244, 0x432aff97, 0xab9423a7, 0xfc93a039, 0x655b59c3, 0x8f0ccc92,
    0xffeff47d, 0x85845dd1, 0x6fa87e4f, 0xfe2ce6e0, 0xa3014314, 0x4e0811a1,
    0xf7537e82, 0xbd3af235, 0x2ad7d2bb, 0xeb86d391
  ]

def rotations : Array UInt32 := #[7, 12, 17, 22, 5, 9, 14, 20, 4, 11, 16, 23, 6, 10, 15, 21]

structure State where
  a : UInt32
  b : UInt32
  c : UInt32
  d : UInt32

def initial : State where
  a := 0x67452301
  b := 0xefcdab89
  c := 0x98badcfe
  d := 0x10325476

def round (block : Array UInt32) (index : Nat) (s : State) : State :=
  let mixed := match index / 16 with
    | 0 => (s.b &&& s.c ||| ~~~s.b &&& s.d, index)
    | 1 => (s.d &&& s.b ||| ~~~s.d &&& s.c, 5 * index + 1)
    | 2 => (s.b ^^^ s.c ^^^ s.d, 3 * index + 5)
    | _ => (s.c ^^^ (s.b ||| ~~~s.d), 7 * index)
  let turned := mixed.1 + s.a + constants.getD index 0 + block.getD (mixed.2 % 16) 0
  let rotation := rotations.getD (4 * (index / 16) + index % 4) 0
  ⟨s.d, s.b + rotateLeft turned rotation, s.b, s.c⟩

def compress (s : State) (block : Array UInt32) : State :=
  let t := Nat.fold 64 (fun index _ state => round block index state) s
  ⟨s.a + t.a, s.b + t.b, s.c + t.c, s.d + t.d⟩

def State.bytes (s : State) : List UInt8 :=
  [s.a, s.b, s.c, s.d].flatMap fun word => ByteOrder.littleEndian.bytes 4 word.toNat

end ComponentPreview.Digest.Md5

namespace ComponentPreview.Digest

/-- The MD5 digest of a message in hexadecimal. -/
def md5 (message : ByteArray) : String :=
  let closed := close .littleEndian message
  hex (Nat.fold (closed.size / 64)
    (fun block _ state => Md5.compress state (blockAt .littleEndian closed block))
    Md5.initial).bytes

end ComponentPreview.Digest
