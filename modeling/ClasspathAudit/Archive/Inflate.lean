/-!
Decompression of deflate streams: stored blocks and blocks under fixed or transmitted Huffman codes.
-/

namespace ClasspathAudit.Archive.Inflate

inductive Fault where
  | truncated
  | corrupt
deriving DecidableEq, Repr

/-- The bits of a byte, least significant first. -/
def bitsOf (b : UInt8) : List Bool :=
  (List.range 8).map fun i => b.toNat >>> i % 2 = 1

/-- A number of `count` bits, least significant first, and the bits after it. -/
def number (count : Nat) (bits : List Bool) : Except Fault (Nat × List Bool) :=
  let taken := bits.take count
  if taken.length < count then .error .truncated
  else .ok (taken.foldr (fun b n => 2 * n + b.toNat) 0, bits.drop count)

/-- A canonical Huffman code: how many symbols there are of each length from one to fifteen, and the
symbols in order of their codes. -/
structure Code where
  counts : List Nat
  symbols : List Nat

/-- The code in which symbol `i` has the `i`-th length, zero meaning that it does not occur. -/
def codeOf (lengths : List Nat) : Code where
  counts := (List.range 15).map fun l => lengths.count (l + 1)
  symbols := (List.range 15).flatMap fun l =>
    lengths.zipIdx.filterMap fun (length, symbol) => if length = l + 1 then some symbol else none

/-- Reads bits until they spell a code. `first` is the first code of the current length and `index` the
place of its symbol. -/
def symbolFrom (symbols : List Nat) :
    List Nat → (code first index : Nat) → List Bool → Except Fault (Nat × List Bool)
  | [], _, _, _, _ => .error .corrupt
  | _ :: _, _, _, _, [] => .error .truncated
  | count :: counts, code, first, index, bit :: bits =>
    let code := code + bit.toNat
    if code < first + count then
      match symbols[index + (code - first)]? with
      | some symbol => .ok (symbol, bits)
      | none => .error .corrupt
    else symbolFrom symbols counts (2 * code) (2 * (first + count)) (index + count) bits

def symbol (c : Code) (bits : List Bool) : Except Fault (Nat × List Bool) :=
  symbolFrom c.symbols c.counts 0 0 0 bits

/-- The least length and the number of extra bits of a length symbol. -/
def lengthBase (symbol : Nat) : Option (Nat × Nat) :=
  [(3, 0), (4, 0), (5, 0), (6, 0), (7, 0), (8, 0), (9, 0), (10, 0), (11, 1), (13, 1), (15, 1), (17, 1),
    (19, 2), (23, 2), (27, 2), (31, 2), (35, 3), (43, 3), (51, 3), (59, 3), (67, 4), (83, 4), (99, 4),
    (115, 4), (131, 5), (163, 5), (195, 5), (227, 5), (258, 0)][symbol - 257]?

/-- The least distance and the number of extra bits of a distance symbol. -/
def distanceBase (symbol : Nat) : Option (Nat × Nat) :=
  [(1, 0), (2, 0), (3, 0), (4, 0), (5, 1), (7, 1), (9, 2), (13, 2), (17, 3), (25, 3), (33, 4), (49, 4),
    (65, 5), (97, 5), (129, 6), (193, 6), (257, 7), (385, 7), (513, 8), (769, 8), (1025, 9), (1537, 9),
    (2049, 10), (3073, 10), (4097, 11), (6145, 11), (8193, 12), (12289, 12), (16385, 13),
    (24577, 13)][symbol]?

/-- Repeats `length` bytes from `distance` back; the output is held backwards. -/
def copyBack (distance : Nat) : Nat → List UInt8 → Option (List UInt8)
  | 0, out => some out
  | length + 1, out => do
    let b ← out[distance - 1]?
    copyBack distance length (b :: out)

def extended (base : Option (Nat × Nat)) (bits : List Bool) : Except Fault (Nat × List Bool) := do
  let some (least, extra) := base | .error .corrupt
  let (more, bits) ← number extra bits
  return (least + more, bits)

def blockBody (literals distances : Code) :
    Nat → List Bool → List UInt8 → Except Fault (List Bool × List UInt8)
  | 0, _, _ => .error .truncated
  | fuel + 1, bits, out => do
    let (s, bits) ← symbol literals bits
    if s < 256 then blockBody literals distances fuel bits (UInt8.ofNat s :: out)
    else if s = 256 then return (bits, out)
    else
      let (length, bits) ← extended (lengthBase s) bits
      let (d, bits) ← symbol distances bits
      let (distance, bits) ← extended (distanceBase d) bits
      match copyBack distance length out with
      | some out => blockBody literals distances fuel bits out
      | none => .error .corrupt

def fixedLiterals : Code :=
  codeOf (List.replicate 144 8 ++ List.replicate 112 9 ++ List.replicate 24 7 ++ List.replicate 8 8)

def fixedDistances : Code := codeOf (List.replicate 30 5)

/-- The order in which the lengths of the length code are transmitted. -/
def lengthOrder : List Nat := [16, 17, 18, 0, 8, 7, 9, 6, 10, 5, 11, 4, 12, 3, 13, 2, 14, 1, 15]

def codeLengths : Nat → List Bool → Except Fault (List Nat × List Bool)
  | 0, bits => .ok ([], bits)
  | count + 1, bits => do
    let (length, bits) ← number 3 bits
    let (lengths, bits) ← codeLengths count bits
    return (length :: lengths, bits)

/-- The run-length coded lengths of the two codes of a block, held backwards. -/
def lengthRun (c : Code) (total : Nat) :
    Nat → List Bool → List Nat → Except Fault (List Nat × List Bool)
  | 0, _, _ => .error .truncated
  | fuel + 1, bits, done => do
    if total ≤ done.length then
      if total < done.length then .error .corrupt else return (done.reverse, bits)
    else
      let (s, bits) ← symbol c bits
      if s < 16 then lengthRun c total fuel bits (s :: done)
      else if s = 16 then
        let some last := done.head? | .error .corrupt
        let (n, bits) ← number 2 bits
        lengthRun c total fuel bits (List.replicate (n + 3) last ++ done)
      else if s = 17 then
        let (n, bits) ← number 3 bits
        lengthRun c total fuel bits (List.replicate (n + 3) 0 ++ done)
      else
        let (n, bits) ← number 7 bits
        lengthRun c total fuel bits (List.replicate (n + 11) 0 ++ done)

def transmittedCodes (bits : List Bool) : Except Fault ((Code × Code) × List Bool) := do
  let (literalCount, bits) ← number 5 bits
  let (distanceCount, bits) ← number 5 bits
  let (lengthCount, bits) ← number 4 bits
  let (given, bits) ← codeLengths (lengthCount + 4) bits
  let placed := lengthOrder.zip given
  let lengths := (List.range 19).map fun i => ((placed.find? (·.1 = i)).map Prod.snd).getD 0
  let total := literalCount + 257 + distanceCount + 1
  let (all, bits) ← lengthRun (codeOf lengths) total (total + 1) bits []
  return ((codeOf (all.take (literalCount + 257)), codeOf (all.drop (literalCount + 257))), bits)

def byteOf (bits : List Bool) : UInt8 :=
  UInt8.ofNat (bits.foldr (fun b n => 2 * n + b.toNat) 0)

def storedBytes : Nat → List Bool → List UInt8 → Except Fault (List Bool × List UInt8)
  | 0, bits, out => .ok (bits, out)
  | count + 1, bits, out =>
    if (bits.take 8).length < 8 then .error .truncated
    else storedBytes count (bits.drop 8) (byteOf (bits.take 8) :: out)

/-- Block after block. The stream consists of whole bytes, so the number of bits left tells how far the
next byte boundary is. -/
def blocks : Nat → List Bool → List UInt8 → Except Fault (List UInt8)
  | 0, _, _ => .error .truncated
  | fuel + 1, bits, out => do
    let (last, bits) ← number 1 bits
    let (kind, bits) ← number 2 bits
    let (bits, out) ← match kind with
      | 0 => do
        let aligned := bits.drop (bits.length % 8)
        let (length, rest) ← number 16 aligned
        let (check, rest) ← number 16 rest
        if length + check ≠ 0xFFFF then .error .corrupt
        else storedBytes length rest out
      | 1 => blockBody fixedLiterals fixedDistances (bits.length + 1) bits out
      | 2 => do
        let ((literals, distances), bits) ← transmittedCodes bits
        blockBody literals distances (bits.length + 1) bits out
      | _ => .error .corrupt
    if last = 1 then return out.reverse else blocks fuel bits out

/-- The contents of a deflate stream; bytes after its last block do not count. -/
def inflate (bytes : List UInt8) : Except Fault (List UInt8) :=
  let bits := bytes.flatMap bitsOf
  blocks (bits.length + 1) bits []

end ClasspathAudit.Archive.Inflate
