import ClasspathAudit.Bytecode.ClassFile

/-!
A bounded memory of parsed classes, which several loaders can share. A class is kept under the hash of
its bytes and is only taken for bytes of its own size. What failed to parse is never kept, so that it
fails again every time it is met.
-/

namespace ClasspathAudit

structure ParseCache where
  capacity : Nat
  /-- The kept classes with their keys, the one used last in front. -/
  entries : List (UInt64 × JavaClass) := []
deriving DecidableEq, Repr

namespace ParseCache

/-- The class under a key, which becomes the one used last. -/
def get (cache : ParseCache) (key : UInt64) : Option JavaClass × ParseCache :=
  match cache.entries.find? (·.1 = key) with
  | none => (none, cache)
  | some entry =>
    (some entry.2, { cache with entries := entry :: cache.entries.filter (·.1 ≠ key) })

/-- Keeps a class under a key; the one not used for the longest time makes room. -/
def add (cache : ParseCache) (key : UInt64) (found : JavaClass) : ParseCache :=
  { cache with
    entries := ((key, found) :: cache.entries.filter (·.1 ≠ key)).take cache.capacity }

/-- The first step of parsing: the class that is kept of the bytes. -/
def lookup (cache : ParseCache) (bytes : List UInt8) : Option JavaClass × ParseCache :=
  match cache.get (Digest.contentHash bytes) with
  | (some found, cache) => (if found.size = bytes.length then some found else none, cache)
  | (none, cache) => (none, cache)

/-- The second step, for bytes of which nothing was kept. -/
def remember (cache : ParseCache) (bytes : List UInt8) : ClassFile.Parsed → ParseCache
  | .accepted found _ => cache.add (Digest.contentHash bytes) found
  | _ => cache

/-- The class of bytes and the failure that comes with them; bytes that are known are not parsed again. -/
def parse (cache : ParseCache) (bytes : List UInt8) :
    (Option JavaClass × Option Failure) × ParseCache :=
  match cache.lookup bytes with
  | (some found, cache) => ((some found, none), cache)
  | (none, cache) =>
    let parsed := ClassFile.parse bytes
    ((parsed.class?, parsed.failure?), cache.remember bytes parsed)

end ParseCache

end ClasspathAudit
