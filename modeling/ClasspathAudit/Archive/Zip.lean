import ClasspathAudit.Archive.Inflate
import ClasspathAudit.Digest.Checksum

/-!
Reading ZIP archives. The directory at the end of an archive lists its files; each listing points back
at a local header, behind which the contents lie, stored or deflated.
-/

namespace ClasspathAudit.Archive.Zip

inductive Fault where
  | format
  | checksum
  | algorithm
  /-- Data ends inside a record. -/
  | unexpectedEnd
  /-- Data ends where a record should begin. -/
  | endOfData
  | negativeOffset
  | corrupt
deriving DecidableEq, Repr

def Fault.message : Fault → String
  | format => "zip: not a valid zip file"
  | checksum => "zip: checksum error"
  | algorithm => "zip: unsupported compression algorithm"
  | unexpectedEnd => "unexpected EOF"
  | endOfData => "EOF"
  | negativeOffset => "bytes.Reader.ReadAt: negative offset"
  | corrupt => "flate: corrupt input"

/-- The number that a list of bytes spells, least significant first. -/
def little (bytes : List UInt8) : Nat :=
  bytes.foldr (fun b n => n * 256 + b.toNat) 0

def field (bytes : List UInt8) (start count : Nat) : Nat :=
  little ((bytes.drop start).take count)

def signed (n : Nat) : Int := Int.bmod n (0x10000000000000000)

def localSignature : Nat := 0x04034b50

def directorySignature : Nat := 0x02014b50

def endSignature : Nat := 0x06054b50

def wideLocatorSignature : Nat := 0x07064b50

def wideEndSignature : Nat := 0x06064b50

def descriptorSignature : Nat := 0x08074b50

/-- How many bytes from the end the end record is looked for. -/
def searchWindow : Nat := 65 * 1024

/-- The position, counted from `position`, of the last end record that has room for its fixed part. -/
def lastEnd? : Nat → List UInt8 → Option (Nat × List UInt8)
  | _, [] => none
  | position, bytes@(_ :: rest) =>
    match lastEnd? (position + 1) rest with
    | some found => some found
    | none =>
      if 22 ≤ bytes.length ∧ field bytes 0 4 = endSignature then some (position, bytes) else none

/-- Where the directory lies and how many files it claims to list. -/
structure DirectoryEnd where
  position : Nat
  records : Nat
  size : Nat
  offset : Nat
deriving DecidableEq, Repr

/-- The place of the wide end record that the locator before the end record tells. -/
def wideEndPosition? (data : List UInt8) (position : Nat) : Option Nat :=
  if position < 20 then none
  else
    let locator := (data.drop (position - 20)).take 20
    let place := field locator 8 8
    if field locator 0 4 = wideLocatorSignature ∧ field locator 4 4 = 0 ∧ field locator 16 4 = 1 ∧
        place < 0x8000000000000000 then
      some place
    else none

/-- The wide end record, which takes the place of the short one. -/
def wideEnd (data : List UInt8) (position : Nat) : Except Fault DirectoryEnd :=
  let record := (data.drop position).take 56
  if record.length < 56 then .error .endOfData
  else if field record 0 4 ≠ wideEndSignature then .error .format
  else .ok { position, records := field record 32 8, size := field record 40 8,
             offset := field record 48 8 }

def directoryEnd (data : List UInt8) : Except Fault DirectoryEnd := do
  let start := data.length - searchWindow
  let some (position, record) := lastEnd? start (data.drop start) | .error .format
  if record.length < 22 + field record 20 2 then .error .format
  else
    let short : DirectoryEnd :=
      { position, records := field record 10 2, size := field record 12 4, offset := field record 16 4 }
    let found ←
      if short.records = 0xFFFF ∨ short.size = 0xFFFF ∨ short.offset = 0xFFFFFFFF then
        match wideEndPosition? data position with
        | some wide => wideEnd data wide
        | none => pure short
      else pure short
    if 0x8000000000000000 ≤ found.size ∨ 0x8000000000000000 ≤ found.offset ∨ found.position < found.size ∨
        data.length ≤ found.position - found.size then .error .format
    else return found

/-- A file as the directory lists it. -/
structure Listing where
  /-- The name as it is encoded. -/
  name : List UInt8
  creator : Nat
  flags : Nat
  method : Nat
  crc : Nat
  compressedSize : Nat
  size : Nat
  attributes : Nat
  /-- Where the local header is said to lie. -/
  offset : Int
deriving DecidableEq, Repr

/-- Which of the numbers of a listing are too wide for it and stand in its extra fields. -/
structure Wide where
  size : Bool
  compressedSize : Bool
  offset : Bool

/-- Replaces the wide numbers of a listing by those of its extra fields. -/
def widen : Nat → List UInt8 → Wide → Listing → Except Fault Listing
  | 0, _, wide, listing => finish wide listing
  | fuel + 1, extra, wide, listing =>
    let length := field extra 2 2
    let body := extra.drop 4
    if extra.length < 4 ∨ body.length < length then finish wide listing
    else if field extra 0 2 = 1 then do
      let block := body.take length
      let (listing, block) ← number wide.size block listing fun l n => { l with size := n }
      let (listing, block) ←
        number wide.compressedSize block listing fun l n => { l with compressedSize := n }
      let (listing, _) ← number wide.offset block listing fun l n => { l with offset := signed n }
      widen fuel (body.drop length) ⟨false, false, false⟩ listing
    else widen fuel (body.drop length) wide listing
where
  number (wanted : Bool) (block : List UInt8) (listing : Listing) (set : Listing → Nat → Listing) :
      Except Fault (Listing × List UInt8) :=
    if !wanted then .ok (listing, block)
    else if block.length < 8 then .error .format
    else .ok (set listing (field block 0 8), block.drop 8)
  finish (wide : Wide) (listing : Listing) : Except Fault Listing :=
    if wide.compressedSize || wide.offset then .error .format else .ok listing

/-- Splits off `count` bytes, and tells a missing record from a truncated one. -/
def split (count : Nat) (bytes : List UInt8) : Except Fault (List UInt8 × List UInt8) :=
  if bytes.length < count then .error (if bytes.isEmpty then .endOfData else .unexpectedEnd)
  else .ok (bytes.take count, bytes.drop count)

def listing (bytes : List UInt8) : Except Fault (Listing × List UInt8) := do
  let (head, rest) ← split 46 bytes
  if field head 0 4 ≠ directorySignature then .error .format
  else
    let nameLength := field head 28 2
    let extraLength := field head 30 2
    let (tail, rest) ← split (nameLength + extraLength + field head 32 2) rest
    let plain : Listing :=
      { name := tail.take nameLength
        creator := field head 4 2 / 256
        flags := field head 8 2
        method := field head 10 2
        crc := field head 16 4
        compressedSize := field head 20 4
        size := field head 24 4
        attributes := field head 38 4
        offset := field head 42 4 }
    let wide : Wide :=
      ⟨plain.size = 0xFFFFFFFF, plain.compressedSize = 0xFFFFFFFF, plain.offset = 0xFFFFFFFF⟩
    return (← widen extraLength ((tail.drop nameLength).take extraLength) wide plain, rest)

/-- The listings from a place in the directory on, and why there are no more. -/
def listings : Nat → List UInt8 → List Listing × Fault
  | 0, _ => ([], .format)
  | fuel + 1, bytes =>
    match listing bytes with
    | .ok (first, rest) =>
      let (more, fault) := listings fuel rest
      (first :: more, fault)
    | .error fault => ([], fault)

/-- The listings of an archive and the offset that their positions count from. The claimed number of
files is compared modulo 65536, as wide as its field; data that ends right at a listing is always
refused. -/
def directory (data : List UInt8) : Except Fault (List Listing × Int) := do
  let found ← directoryEnd data
  let base : Int := found.position - found.size - found.offset
  let base : Int := match listing (data.drop found.offset) with
    | .ok _ => if 0 < base then 0 else base
    | .error _ => base
  let (files, fault) := listings data.length (data.drop (base + found.offset).toNat)
  if fault = .endOfData ∨ files.length % 65536 ≠ found.records % 65536 then .error fault
  else return (files, base)

/-- Whether a listing stands for a directory: by its name, or by the attributes of the system that
wrote it. -/
def Listing.isDirectory (file : Listing) : Bool :=
  file.name.getLast? == some 47 ||
    (([3, 19].contains file.creator && file.attributes / 0x10000000 == 4) ||
      ([0, 11, 14].contains file.creator && file.attributes / 16 % 2 == 1))

/-- The checksum in the descriptor that follows the contents, its signature being optional. -/
def descriptorChecksum (bytes : List UInt8) : Except Fault Nat :=
  let start := if field bytes 0 4 = descriptorSignature then 4 else 0
  if bytes.length < 4 ∨ bytes.length < start + 12 then .error .unexpectedEnd
  else .ok (field bytes start 4)

/-- The bytes behind a local header as they were before compression. -/
def expand (method : Nat) (raw : List UInt8) : Except Fault (List UInt8) :=
  if method = 0 then .ok raw
  else match Inflate.inflate raw with
    | .ok bytes => .ok bytes
    | .error .truncated => .error .unexpectedEnd
    | .error .corrupt => .error .corrupt

def content (data : List UInt8) (base : Int) (file : Listing) : Except Fault (List UInt8) := do
  let place := Int.bmod (file.offset + base) (0x10000000000000000)
  if place < 0 then .error .negativeOffset
  else
    let head := (data.drop place.toNat).take 30
    if head.length < 30 then .error .endOfData
    else if field head 0 4 ≠ localSignature then .error .format
    else if file.method ≠ 0 ∧ file.method ≠ 8 then .error .algorithm
    else
      let after := (data.drop (place.toNat + 30 + field head 26 2 + field head 28 2))
      let bytes ← expand file.method (after.take file.compressedSize)
      if file.size < bytes.length then .error .format
      else if bytes.length < file.size then .error .unexpectedEnd
      else
        let actual := (Digest.crc32 bytes).toNat
        if file.flags / 8 % 2 = 1 then do
          let told ← descriptorChecksum ((after.drop file.compressedSize).take 16)
          if told ≠ file.crc ∨ actual ≠ file.crc then .error .checksum else return bytes
        else if file.crc ≠ 0 ∧ actual ≠ file.crc then .error .checksum
        else return bytes

/-- A file of an archive. -/
structure File where
  /-- The name as it is encoded. -/
  name : List UInt8
  content : Except Fault (List UInt8)

/-- The files of an archive in directory order, without the directories. -/
def files (data : List UInt8) : Except Fault (List File) := do
  let (found, base) ← directory data
  return (found.filter fun file => !file.isDirectory).map fun file =>
    { name := file.name, content := content data base file }

end ClasspathAudit.Archive.Zip
