import ClasspathAudit.Text.Utf8

/-!
Modified UTF-8, the text form inside class files: NUL is written in two bytes, characters have at
most three bytes, and a supplementary character is a pair of surrogates of three bytes each. Reading
tolerates overlong forms and replaces a surrogate without partner.
-/

namespace ClasspathAudit.Text.ModifiedUtf8

/-- Why bytes are no modified UTF-8, with the offset of the first byte concerned. -/
inductive Fault where
  | nul (offset : Nat)
  | twoByte (offset : Nat)
  | threeByte (offset : Nat)
  | lead (byte : UInt8) (offset : Nat)
deriving DecidableEq, Repr

/-- A group of one to three bytes read as a code unit, with the bytes after it. -/
def group (offset : Nat) : List UInt8 → Except Fault (Nat × Nat)
  | [] => .ok (0, 0)
  | b :: rest =>
    if b = 0 then .error (.nul offset)
    else if b < 0x80 then .ok (b.toNat, 1)
    else if b &&& 0xE0 = 0xC0 then
      match rest with
      | c :: _ => if isContinuation c then .ok (sixBits 0x1F b [c], 2) else .error (.twoByte offset)
      | [] => .error (.twoByte offset)
    else if b &&& 0xF0 = 0xE0 then
      match rest with
      | c :: d :: _ =>
        if isContinuation c ∧ isContinuation d then .ok (sixBits 0x0F b [c, d], 3)
        else .error (.threeByte offset)
      | _ => .error (.threeByte offset)
    else .error (.lead b offset)

/-- The code units of a byte sequence; `skip` bytes belong to the group before. -/
def units : Nat → Nat → List UInt8 → Except Fault (List Nat)
  | _, _, [] => .ok []
  | skip + 1, offset, _ :: rest => units skip (offset + 1) rest
  | 0, offset, b :: rest => do
    let (unit, width) ← group offset (b :: rest)
    let more ← units (width - 1) (offset + 1) rest
    return unit :: more

def isHighSurrogate (unit : Nat) : Bool := 0xD800 ≤ unit && unit < 0xDC00

def isLowSurrogate (unit : Nat) : Bool := 0xDC00 ≤ unit && unit < 0xE000

/-- Joins each high surrogate with the low one right after it; any other surrogate is replaced. -/
def joinSurrogates : List Nat → List Char
  | [] => []
  | [u] => [if isHighSurrogate u || isLowSurrogate u then replacement else Char.ofNat u]
  | u :: v :: rest =>
    if isHighSurrogate u then
      if isLowSurrogate v then
        Char.ofNat (0x10000 + (u - 0xD800) * 0x400 + (v - 0xDC00)) :: joinSurrogates rest
      else replacement :: joinSurrogates (v :: rest)
    else (if isLowSurrogate u then replacement else Char.ofNat u) :: joinSurrogates (v :: rest)

/-- A byte that is a character of its own. -/
def isPlain (b : UInt8) : Bool := b ≠ 0 && b < 0x80

/-- The text of bytes: plain bytes alone are taken as they are, others are read group by group. -/
def decode (bytes : List UInt8) : Except Fault String :=
  if bytes.all isPlain then .ok (String.ofList (bytes.map fun b => Char.ofNat b.toNat))
  else (units 0 0 bytes).map fun us => String.ofList (joinSurrogates us)

/-- The bytes of one code unit in its shortest form, NUL excepted. -/
def encodeUnit (u : Nat) : List UInt8 :=
  if 0 < u ∧ u < 0x80 then [UInt8.ofNat u]
  else if u < 0x800 then [UInt8.ofNat (0xC0 + u / 64), UInt8.ofNat (0x80 + u % 64)]
  else [UInt8.ofNat (0xE0 + u / 4096), UInt8.ofNat (0x80 + u / 64 % 64), UInt8.ofNat (0x80 + u % 64)]

def encodeChar (c : Char) : List UInt8 :=
  let n := c.toNat
  if n < 0x10000 then encodeUnit n
  else
    encodeUnit (0xD800 + (n - 0x10000) / 0x400) ++ encodeUnit (0xDC00 + (n - 0x10000) % 0x400)

def encode (s : String) : List UInt8 :=
  s.toList.flatMap encodeChar

end ClasspathAudit.Text.ModifiedUtf8
