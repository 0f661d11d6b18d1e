import ClasspathAudit.Archive.Zip
import ClasspathAudit.Text.Utf8

/-!
Writing ZIP archives with stored contents.
-/

namespace ClasspathAudit.Archive.Zip

/-- A number as `count` bytes, least significant first. -/
def littleBytes : Nat → Nat → List UInt8
  | 0, _ => []
  | count + 1, n => UInt8.ofNat n :: littleBytes count (n / 256)

/-- The fields that local header and listing share: versions, flags, method, time, checksum, sizes and
the lengths of name and extra fields. -/
def sharedFields (name content : List UInt8) : List UInt8 :=
  littleBytes 2 20 ++ littleBytes 2 0x800 ++ littleBytes 2 0 ++ littleBytes 4 0x00210000 ++
    littleBytes 4 (Digest.crc32 content).toNat ++ littleBytes 4 content.length ++
    littleBytes 4 content.length ++ littleBytes 2 name.length ++ littleBytes 2 0

def localRecord (name content : List UInt8) : List UInt8 :=
  littleBytes 4 localSignature ++ sharedFields name content ++ name ++ content

def listingRecord (offset : Nat) (name content : List UInt8) : List UInt8 :=
  littleBytes 4 directorySignature ++ littleBytes 2 20 ++ sharedFields name content ++
    littleBytes 2 0 ++ littleBytes 2 0 ++ littleBytes 2 0 ++ littleBytes 4 0 ++
    littleBytes 4 offset ++ name

/-- The records of the files from `offset` on, and the directory that lists them. -/
def records : Nat → List (List UInt8 × List UInt8) → List UInt8 × List UInt8
  | _, [] => ([], [])
  | offset, (name, content) :: rest =>
    let record := localRecord name content
    let (bodies, listed) := records (offset + record.length) rest
    (record ++ bodies, listingRecord offset name content ++ listed)

/-- The archive that holds the files in the given order. -/
def write (files : List (String × List UInt8)) : List UInt8 :=
  let (bodies, listed) := records 0 (files.map fun (name, content) => (Text.encodeUtf8 name, content))
  bodies ++ listed ++
    littleBytes 4 endSignature ++ littleBytes 2 0 ++ littleBytes 2 0 ++ littleBytes 2 files.length ++
    littleBytes 2 files.length ++ littleBytes 4 listed.length ++ littleBytes 4 bodies.length ++
    littleBytes 2 0

end ClasspathAudit.Archive.Zip
