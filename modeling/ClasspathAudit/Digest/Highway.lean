import ClasspathAudit.Text.Hex
import ClasspathAudit.Text.Utf8

/-!
The 64-bit HighwayHash of a byte sequence under a fixed key. Equal contents have equal hashes, which
is how identical classes and resources are recognised.
-/

namespace ClasspathAudit.Digest.Highway

/-- Four 64-bit lanes. -/
structure Lanes where
  a : UInt64
  b : UInt64
  c : UInt64
  d : UInt64

namespace Lanes

def map (f : UInt64 → UInt64) (x : Lanes) : Lanes :=
  ⟨f x.a, f x.b, f x.c, f x.d⟩

def zip (f : UInt64 → UInt64 → UInt64) (x y : Lanes) : Lanes :=
  ⟨f x.a y.a, f x.b y.b, f x.c y.c, f x.d y.d⟩

end Lanes

structure State where
  v0 : Lanes
  v1 : Lanes
  mul0 : Lanes
  mul1 : Lanes

def start0 : Lanes :=
  ⟨0xdbe6d5d5fe4cce2f, 0xa4093822299f31d0, 0x13198a2e03707344, 0x243f6a8885a308d3⟩

def start1 : Lanes :=
  ⟨0x3bd39e10cb0ef593, 0xc0acf169b5f18a8c, 0xbe5466cf34e90c6c, 0x452821e638d01377⟩

/-- Exchanges the two halves of a word. -/
def swapHalves (x : UInt64) : UInt64 := x >>> 32 ||| x <<< 32

def initial (key : Lanes) : State where
  v0 := start0.zip (· ^^^ ·) key
  v1 := start1.zip (· ^^^ ·) (key.map swapHalves)
  mul0 := start0
  mul1 := start1

/-- The low half of the first word times the high half of the second. -/
def crossMul (x y : UInt64) : UInt64 := (x &&& (0xffffffff : UInt64)) * (y >>> 32)

/-- The byte of a word at `index`, in place. -/
def byteOf (x : UInt64) (index : UInt64) : UInt64 :=
  x &&& ((0xff : UInt64) <<< (8 * index))

/-- The byte shuffle of a pair of words, low word of the result first. -/
def zipperMerge (v1 v0 : UInt64) : UInt64 × UInt64 :=
  ((byteOf v0 3 ||| byteOf v1 4) >>> 24 ||| (byteOf v0 5 ||| byteOf v1 6) >>> 16 |||
    byteOf v0 2 ||| byteOf v0 1 <<< 32 ||| byteOf v1 7 >>> 8 ||| v0 <<< 56,
   (byteOf v1 3 ||| byteOf v0 4) >>> 24 ||| byteOf v1 2 ||| byteOf v1 5 >>> 16 |||
    byteOf v1 1 <<< 24 ||| byteOf v0 6 >>> 8 ||| byteOf v1 0 <<< 48 ||| byteOf v0 7)

def addMerged (target source : Lanes) : Lanes :=
  let (low, high) := zipperMerge source.b source.a
  let (low', high') := zipperMerge source.d source.c
  ⟨target.a + low, target.b + high, target.c + low', target.d + high'⟩

/-- Mixes one packet of 32 bytes into the state. -/
def update (s : State) (packet : Lanes) : State :=
  let v1 := s.v1.zip (· + ·) (s.mul0.zip (· + ·) packet)
  let mul0 := s.mul0.zip (· ^^^ ·) (v1.zip crossMul s.v0)
  let v0 := s.v0.zip (· + ·) s.mul1
  let mul1 := s.mul1.zip (· ^^^ ·) (v0.zip crossMul v1)
  let v0 := addMerged v0 v1
  let v1 := addMerged v1 v0
  ⟨v0, v1, mul0, mul1⟩

/-- Little-endian word of eight bytes; missing bytes are zero. -/
def word (bytes : List UInt8) : UInt64 :=
  (bytes.take 8).foldr (fun b w => w <<< 8 ||| b.toUInt64) 0

def lanes (bytes : List UInt8) : Lanes :=
  ⟨word bytes, word (bytes.drop 8), word (bytes.drop 16), word (bytes.drop 24)⟩

/-- Rotates both halves of a word left. -/
def rotateHalves (count : UInt64) (x : UInt64) : UInt64 :=
  let low : UInt64 := 0xffffffff
  let turn (half : UInt64) := (half <<< count ||| half >>> (32 - count)) &&& low
  turn (x >>> 32) <<< 32 ||| turn (x &&& low)

/-- The last packet: the whole words of the rest, and its remaining bytes at fixed places. -/
def tailPacket (rest : List UInt8) : List UInt8 :=
  let size := rest.length
  let odd := size % 4
  let whole := rest.take (size - odd)
  let extra := rest.drop (size - odd)
  let byte (bytes : List UInt8) (i : Nat) := bytes.getD i 0
  if 16 ≤ size then
    whole ++ List.replicate (28 - whole.length) 0 ++ rest.drop (size - 4)
  else if odd = 0 then whole
  else
    whole ++ List.replicate (16 - whole.length) 0 ++
      [byte extra 0, byte extra (odd / 2), byte extra (odd - 1)]

def mixTail (s : State) (rest : List UInt8) : State :=
  let size := UInt64.ofNat rest.length
  let v0 := s.v0.map (· + (size <<< 32 + size))
  let v1 := s.v1.map (rotateHalves size)
  update { s with v0, v1 } (lanes (tailPacket rest))

/-- Mixes packet after packet; the fuel bounds their number. -/
def mix : Nat → State → List UInt8 → State
  | 0, s, _ => s
  | fuel + 1, s, bytes =>
    match bytes.drop 31 with
    | [] => if bytes.isEmpty then s else mixTail s bytes
    | _ :: rest => mix fuel (update s (lanes bytes)) rest

def permuteAndUpdate (s : State) : State :=
  update s ⟨swapHalves s.v0.c, swapHalves s.v0.d, swapHalves s.v0.a, swapHalves s.v0.b⟩

def hash64 (key bytes : List UInt8) : UInt64 :=
  let s := mix (bytes.length / 32 + 1) (initial (lanes key)) bytes
  let s := permuteAndUpdate (permuteAndUpdate (permuteAndUpdate (permuteAndUpdate s)))
  s.v0.a + s.v1.a + s.mul0.a + s.mul1.a

end ClasspathAudit.Digest.Highway

namespace ClasspathAudit.Digest

def contentKey : List UInt8 := Text.encodeUtf8 "jarhc-bytecode-hash-key-32bytes!"

def contentHash (bytes : List UInt8) : UInt64 := Highway.hash64 contentKey bytes

def hashText (hash : UInt64) : String := String.ofList (Text.hexFixed 16 hash.toNat)

end ClasspathAudit.Digest
