/-!
UTF-8 as archives and files bring it: bytes that form no character are read one at a time as the
replacement character, so that every byte sequence has a text.
-/

namespace ClasspathAudit.Text

def replacement : Char := Char.ofNat 0xFFFD

def isContinuation (b : UInt8) : Bool := b &&& 0xC0 == 0x80

/-- The number whose bits are those of the lead byte under `mask`, followed by six of each
continuation byte. -/
def sixBits (mask lead : UInt8) (rest : List UInt8) : Nat :=
  rest.foldl (fun n b => n * 64 + (b &&& 0x3F).toNat) (lead &&& mask).toNat

/-- The first character of a byte sequence and how many bytes beyond the first it takes. -/
def decodeFirst (b : UInt8) (rest : List UInt8) : Option (Char × Nat) :=
  if b < 0x80 then some (Char.ofNat b.toNat, 0)
  else if 0xC2 ≤ b ∧ b ≤ 0xDF then
    match rest with
    | c :: _ => if isContinuation c then some (Char.ofNat (sixBits 0x1F b [c]), 1) else none
    | _ => none
  else if 0xE0 ≤ b ∧ b ≤ 0xEF then
    match rest with
    | c :: d :: _ =>
      let n := sixBits 0x0F b [c, d]
      if isContinuation c ∧ isContinuation d ∧ 0x800 ≤ n ∧ ¬(0xD800 ≤ n ∧ n ≤ 0xDFFF) then
        some (Char.ofNat n, 2)
      else none
    | _ => none
  else if 0xF0 ≤ b ∧ b ≤ 0xF4 then
    match rest with
    | c :: d :: e :: _ =>
      let n := sixBits 0x07 b [c, d, e]
      if isContinuation c ∧ isContinuation d ∧ isContinuation e ∧ 0x10000 ≤ n ∧ n ≤ 0x10FFFF then
        some (Char.ofNat n, 3)
      else none
    | _ => none
  else none

/-- Reads characters; `skip` bytes belong to the character before. -/
def decodeUtf8Chars : Nat → List UInt8 → List Char
  | _, [] => []
  | skip + 1, _ :: rest => decodeUtf8Chars skip rest
  | 0, b :: rest =>
    match decodeFirst b rest with
    | some (c, extra) => c :: decodeUtf8Chars extra rest
    | none => replacement :: decodeUtf8Chars 0 rest

/-- The text of a byte sequence, a replacement character standing for each byte that fits none. -/
def decodeUtf8 (bytes : List UInt8) : String :=
  String.ofList (decodeUtf8Chars 0 bytes)

def encodeUtf8 (s : String) : List UInt8 := s.toUTF8.toList

/-- How many bytes characters take. -/
def byteCount (cs : List Char) : Nat := cs.foldl (fun n c => n + c.utf8Size) 0

/-- The first byte of a character's encoding. -/
def leadByte (c : Char) : UInt8 :=
  let n := c.toNat
  if n < 0x80 then UInt8.ofNat n
  else if n < 0x800 then UInt8.ofNat (0xC0 + n / 0x40)
  else if n < 0x10000 then UInt8.ofNat (0xE0 + n / 0x1000)
  else UInt8.ofNat (0xF0 + n / 0x40000)

def validUtf8 : Nat → List UInt8 → Bool
  | _, [] => true
  | skip + 1, _ :: rest => validUtf8 skip rest
  | 0, b :: rest =>
    match decodeFirst b rest with
    | some (_, extra) => validUtf8 extra rest
    | none => false

end ClasspathAudit.Text
