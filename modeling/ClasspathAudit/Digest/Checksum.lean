import ClasspathAudit.Text.Hex

/-!
The checksum of archive entries, which is CRC-32, and the digest by which an archive is known, which is
SHA-1.
-/

namespace ClasspathAudit.Digest

def crcShift : Nat → UInt32 → UInt32
  | 0, crc => crc
  | bits + 1, crc =>
    crcShift bits (if crc &&& (1 : UInt32) = 1 then crc >>> 1 ^^^ 0xEDB88320 else crc >>> 1)

/-- The CRC-32 checksum. -/
def crc32 (bytes : List UInt8) : UInt32 :=
  ~~~ bytes.foldl (fun crc b => crcShift 8 (crc ^^^ b.toUInt32)) 0xFFFFFFFF

namespace Sha1

structure State where
  a : UInt32
  b : UInt32
  c : UInt32
  d : UInt32
  e : UInt32

def initial : State := ⟨0x67452301, 0xEFCDAB89, 0x98BADCFE, 0x10325476, 0xC3D2E1F0⟩

def rotate (count : UInt32) (x : UInt32) : UInt32 := x <<< count ||| x >>> (32 - count)

/-- Big-endian words of four bytes each. -/
def words : List UInt8 → List UInt32
  | a :: b :: c :: d :: rest =>
    (a.toUInt32 <<< 24 ||| b.toUInt32 <<< 16 ||| c.toUInt32 <<< 8 ||| d.toUInt32) :: words rest
  | _ => []

/-- The last `count` words of the schedule, latest first, extended by as many as `more`. -/
def extend : Nat → List UInt32 → List UInt32
  | 0, schedule => schedule
  | more + 1, schedule =>
    let at' (i : Nat) := schedule.getD i 0
    extend more (rotate 1 (at' 2 ^^^ at' 7 ^^^ at' 13 ^^^ at' 15) :: schedule)

def mixing (round : Nat) (b c d : UInt32) : UInt32 :=
  if round < 20 then ((b &&& c) ||| ((~~~ b) &&& d)) + 0x5A827999
  else if round < 40 then (b ^^^ c ^^^ d) + 0x6ED9EBA1
  else if round < 60 then ((b &&& c) ||| (b &&& d) ||| (c &&& d)) + 0x8F1BBCDC
  else (b ^^^ c ^^^ d) + 0xCA62C1D6

def step (s : State) (word : UInt32 × Nat) : State :=
  ⟨rotate 5 s.a + mixing word.2 s.b s.c s.d + s.e + word.1, s.a, rotate 30 s.b, s.c, s.d⟩

/-- Mixes one block of sixteen words into the state. -/
def compress (s : State) (block : List UInt32) : State :=
  let t := (extend 64 block.reverse).reverse.zipIdx.foldl step s
  ⟨s.a + t.a, s.b + t.b, s.c + t.c, s.d + t.d, s.e + t.e⟩

def lengthBytes (bits : Nat) : List UInt8 :=
  (List.range 8).map fun i => UInt8.ofNat (bits >>> (8 * (7 - i)))

/-- The message with its padding: a set bit, zeros and the length in bits. -/
def padded (bytes : List UInt8) : List UInt8 :=
  bytes ++ [0x80] ++ List.replicate ((119 - bytes.length % 64) % 64) 0 ++
    lengthBytes (8 * bytes.length)

/-- Mixes block after block; the fuel bounds their number. -/
def blocks : Nat → State → List UInt32 → State
  | 0, s, _ => s
  | fuel + 1, s, message =>
    if message.isEmpty then s else blocks fuel (compress s (message.take 16)) (message.drop 16)

def hexDigest (bytes : List UInt8) : String :=
  let message := words (padded bytes)
  let s := blocks (message.length / 16 + 1) initial message
  String.ofList ([s.a, s.b, s.c, s.d, s.e].flatMap fun w => Text.hexFixed 8 w.toNat)

end Sha1

end ClasspathAudit.Digest
