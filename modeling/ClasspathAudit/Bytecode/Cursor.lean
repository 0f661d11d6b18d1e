/-!
A cursor over big-endian bytes. The first read that runs past the end is remembered; from then on
every read yields zero and consumes nothing, so a failure shows at the next point where it is asked
for.
-/

namespace ClasspathAudit.Bytecode

/-- A read that ran past the end. -/
structure Truncation where
  offset : Nat
  needed : Nat
  available : Nat
deriving DecidableEq, Repr

def Truncation.message (t : Truncation) : String :=
  s!"truncated at offset {t.offset}: need {t.needed} bytes, have {t.available}"

structure Cursor where
  rest : List UInt8
  offset : Nat := 0
  failure : Option Truncation := none
deriving DecidableEq, Repr

namespace Cursor

/-- Remembers a failed read, unless there was one before. -/
def fail (c : Cursor) (needed : Nat) : Cursor :=
  match c.failure with
  | some _ => c
  | none => { c with failure := some ⟨c.offset, needed, c.rest.length⟩ }

/-- The next `count` bytes, none of them if there are too few. -/
def bytes (c : Cursor) (count : Nat) : List UInt8 × Cursor :=
  if c.failure.isNone ∧ count ≤ c.rest.length then
    (c.rest.take count, { c with rest := c.rest.drop count, offset := c.offset + count })
  else ([], c.fail count)

/-- The number that a list of bytes spells, most significant first. -/
def number (bytes : List UInt8) : Nat :=
  bytes.foldl (fun n b => n * 256 + b.toNat) 0

def unsigned (c : Cursor) (count : Nat) : Nat × Cursor :=
  let (read, c) := c.bytes count
  (number read, c)

def skip (c : Cursor) (count : Nat) : Cursor := (c.bytes count).2

/-- A cursor over the next `count` bytes alone, and the cursor after them. -/
def sub (c : Cursor) (count : Nat) : Cursor × Cursor :=
  let (read, c) := c.bytes count
  ({ rest := read }, c)

end Cursor

end ClasspathAudit.Bytecode
