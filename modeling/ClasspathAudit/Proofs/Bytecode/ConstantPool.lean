import ClasspathAudit.Proofs.Answers
import ClasspathAudit.Proofs.Bytecode.Reading
import ClasspathAudit.Proofs.Text.ModifiedUtf8

/-!
The written form of constants and of whole pools, and that it is read back: each constant from its own
bytes, and a list of constants into slots, where a wide constant leaves an empty slot behind.
-/

namespace ClasspathAudit.Bytecode

open Assembly (u1 u2 u4)

namespace Constant

/-- The bytes of an entry, its tag in front. -/
def bytes : Constant → List UInt8
  | utf8 value =>
    u1 1 ++ u2 (Text.ModifiedUtf8.encode value).length ++ Text.ModifiedUtf8.encode value
  | integer bits => u1 3 ++ u4 bits
  | float bits => u1 4 ++ u4 bits
  | long high low => u1 5 ++ u4 high ++ u4 low
  | double high low => u1 6 ++ u4 high ++ u4 low
  | classInfo name => u1 7 ++ u2 name
  | string value => u1 8 ++ u2 value
  | fieldRef owner member => u1 9 ++ u2 owner ++ u2 member
  | methodRef owner member => u1 10 ++ u2 owner ++ u2 member
  | interfaceMethodRef owner member => u1 11 ++ u2 owner ++ u2 member
  | nameAndType name descriptor => u1 12 ++ u2 name ++ u2 descriptor
  | methodHandle kind reference => u1 15 ++ u1 kind ++ u2 reference
  | methodType descriptor => u1 16 ++ u2 descriptor
  | dynamic bootstrap member => u1 17 ++ u2 bootstrap ++ u2 member
  | invokeDynamic bootstrap member => u1 18 ++ u2 bootstrap ++ u2 member
  | moduleInfo name => u1 19 ++ u2 name
  | packageInfo name => u1 20 ++ u2 name

/-- Whether every part of a constant fits the width it is written in. -/
def Fits : Constant → Prop
  | utf8 value => (Text.ModifiedUtf8.encode value).length < 65536
  | integer bits | float bits => bits < 4294967296
  | long high low | double high low => high < 4294967296 ∧ low < 4294967296
  | methodHandle kind reference => kind < 256 ∧ reference < 65536
  | fieldRef a b | methodRef a b | interfaceMethodRef a b | nameAndType a b | dynamic a b
  | invokeDynamic a b => a < 65536 ∧ b < 65536
  | classInfo a | string a | methodType a | moduleInfo a | packageInfo a => a < 65536

open Scan

theorem readText_reads {value : String} (fits : (Constant.utf8 value).Fits) (index : Nat) :
    Reads (readText index)
      (u2 (Text.ModifiedUtf8.encode value).length ++ Text.ModifiedUtf8.encode value)
      (.utf8 value) {} := by
  refine Reads.bind_silent (Reads.u2 fits) ?_
  refine Reads.bind_last (Reads.bytes _) ?_
  refine Reads.bind_still Reads.checkpoint ?_
  rw [Text.ModifiedUtf8.decode_encode_text]
  exact Reads.pure _

theorem readPair_reads {make : Nat → Nat → Constant} {first second : Scan Nat}
    {bytes bytes' : List UInt8} {a b : Nat} (readsFirst : Reads first bytes a {})
    (readsSecond : Reads second bytes' b {}) :
    Reads (readPair make first second) (bytes ++ bytes') (make a b) {} := by
  refine Reads.bind_silent readsFirst ?_
  exact Reads.bind_last readsSecond (Reads.pure (make a b))

theorem map_reads {make : Nat → Constant} {act : Scan Nat} {bytes : List UInt8} {a : Nat}
    (reads : Reads act bytes a {}) : Reads (make <$> act) bytes (make a) {} := by
  rw [map_eq_pure_bind]
  exact Reads.bind_last reads (Reads.pure (make a))

theorem readByte_reads {n : Nat} (small : n < 256) : Reads (UInt8.toNat <$> Scan.u1) (u1 n) n {} := by
  have value : (UInt8.ofNat n).toNat = n := by simp [Nat.mod_eq_of_lt small]
  have reads := Reads.bind_last (f := fun b => Pure.pure b.toNat) (Reads.u1 (UInt8.ofNat n))
    (Reads.pure _)
  rw [value] at reads
  rw [map_eq_pure_bind]
  exact reads

/-- What follows the tag of an entry, up to its end. -/
theorem entry_reads {act : Scan Constant} {bytes : List UInt8} {c : Constant}
    (reads : Reads act bytes c {}) :
    Reads (do let entry ← act; checkpoint; return entry) bytes c {} :=
  Reads.bind_last reads (Reads.bind_still Reads.checkpoint (Reads.pure c))

/-- Every constant is read back from its bytes. -/
theorem read_bytes {c : Constant} (fits : c.Fits) (index : Nat) :
    Reads (Constant.read index) c.bytes c {} := by
  cases c with
  | utf8 value =>
    rw [bytes, List.append_assoc]
    exact Reads.bind_silent (Reads.u1 1) (entry_reads (readText_reads fits index))
  | integer bits => exact Reads.bind_silent (Reads.u1 3) (entry_reads (map_reads (Reads.u4 fits)))
  | float bits => exact Reads.bind_silent (Reads.u1 4) (entry_reads (map_reads (Reads.u4 fits)))
  | long high low =>
    rw [bytes, List.append_assoc]
    exact Reads.bind_silent (Reads.u1 5)
      (entry_reads (readPair_reads (Reads.u4 fits.1) (Reads.u4 fits.2)))
  | double high low =>
    rw [bytes, List.append_assoc]
    exact Reads.bind_silent (Reads.u1 6)
      (entry_reads (readPair_reads (Reads.u4 fits.1) (Reads.u4 fits.2)))
  | classInfo name => exact Reads.bind_silent (Reads.u1 7) (entry_reads (map_reads (Reads.u2 fits)))
  | string value => exact Reads.bind_silent (Reads.u1 8) (entry_reads (map_reads (Reads.u2 fits)))
  | fieldRef owner member =>
    rw [bytes, List.append_assoc]
    exact Reads.bind_silent (Reads.u1 9)
      (entry_reads (readPair_reads (Reads.u2 fits.1) (Reads.u2 fits.2)))
  | methodRef owner member =>
    rw [bytes, List.append_assoc]
    exact Reads.bind_silent (Reads.u1 10)
      (entry_reads (readPair_reads (Reads.u2 fits.1) (Reads.u2 fits.2)))
  | interfaceMethodRef owner member =>
    rw [bytes, List.append_assoc]
    exact Reads.bind_silent (Reads.u1 11)
      (entry_reads (readPair_reads (Reads.u2 fits.1) (Reads.u2 fits.2)))
  | nameAndType name descriptor =>
    rw [bytes, List.append_assoc]
    exact Reads.bind_silent (Reads.u1 12)
      (entry_reads (readPair_reads (Reads.u2 fits.1) (Reads.u2 fits.2)))
  | methodHandle kind reference =>
    rw [bytes, List.append_assoc]
    exact Reads.bind_silent (Reads.u1 15)
      (entry_reads (readPair_reads (readByte_reads fits.1) (Reads.u2 fits.2)))
  | methodType descriptor =>
    exact Reads.bind_silent (Reads.u1 16) (entry_reads (map_reads (Reads.u2 fits)))
  | dynamic bootstrap member =>
    rw [bytes, List.append_assoc]
    exact Reads.bind_silent (Reads.u1 17)
      (entry_reads (readPair_reads (Reads.u2 fits.1) (Reads.u2 fits.2)))
  | invokeDynamic bootstrap member =>
    rw [bytes, List.append_assoc]
    exact Reads.bind_silent (Reads.u1 18)
      (entry_reads (readPair_reads (Reads.u2 fits.1) (Reads.u2 fits.2)))
  | moduleInfo name =>
    exact Reads.bind_silent (Reads.u1 19) (entry_reads (map_reads (Reads.u2 fits)))
  | packageInfo name =>
    exact Reads.bind_silent (Reads.u1 20) (entry_reads (map_reads (Reads.u2 fits)))

/-- The slots that a constant takes. -/
def slots (c : Constant) : List (Option Constant) :=
  if c.isWide then [some c, none] else [some c]

end Constant

namespace ConstantPool

open Scan

/-- The pool of constants in order, slot zero being unused. -/
def ofConstants (cs : List Constant) : ConstantPool :=
  ⟨(none :: cs.flatMap Constant.slots).toArray⟩

theorem readSlots_reads {cs : List Constant} (fits : ∀ c ∈ cs, c.Fits) (index : Nat) :
    Reads (readSlots (cs.flatMap Constant.slots).length index) (cs.flatMap Constant.bytes)
      (cs.flatMap Constant.slots) {} := by
  induction cs generalizing index with
  | nil => exact Reads.pure []
  | cons c cs ih =>
    have first := Constant.read_bytes (fits c (by simp)) index
    have rest := ih fun c' member => fits c' (List.mem_cons_of_mem c member)
    simp only [List.flatMap_cons, List.length_append]
    by_cases wide : c.isWide = true
    · have two : c.slots = [some c, none] := if_pos wide
      rw [two, show [some c, none].length + (cs.flatMap Constant.slots).length =
        (cs.flatMap Constant.slots).length + 1 + 1 by simp; omega, readSlots]
      refine Reads.bind_silent first ?_
      rw [if_pos wide]
      exact Reads.bind_last (rest (index + 2))
        (Reads.pure (some c :: none :: cs.flatMap Constant.slots))
    · have one : c.slots = [some c] := if_neg wide
      rw [one, show [some c].length + (cs.flatMap Constant.slots).length =
        (cs.flatMap Constant.slots).length + 1 by simp; omega, readSlots.eq_2]
      refine Reads.bind_silent first ?_
      rw [if_neg wide]
      exact Reads.bind_last (rest (index + 1)) (Reads.pure (some c :: cs.flatMap Constant.slots))

/-- A pool is read back from its slot count and the bytes of its constants. -/
theorem read_reads {cs : List Constant} (fits : ∀ c ∈ cs, c.Fits)
    (small : (cs.flatMap Constant.slots).length < 65535) :
    Reads ConstantPool.read
      (Assembly.u2 ((cs.flatMap Constant.slots).length + 1) ++ cs.flatMap Constant.bytes)
      (ofConstants cs) {} := by
  refine Reads.bind_silent (Reads.u2 (by omega)) ?_
  refine Reads.bind_still Reads.checkpoint ?_
  exact Reads.bind_last (readSlots_reads fits 1) (Reads.pure (ofConstants cs))

/-- A class is named by an entry that points to a text. -/
theorem className_eq_ok {pool : ConstantPool} {i : Nat} {name : String}
    (found : pool.className i = .ok name) :
    ∃ j, pool.get i = .ok (.classInfo j) ∧ pool.utf8 j = .ok name := by
  unfold className at found
  obtain ⟨constant, entry, found⟩ := bind_eq_ok found
  cases constant with
  | classInfo j => exact ⟨j, entry, found⟩
  | _ => cases found

/-- A name and its type come from an entry that points to two texts. -/
theorem nameAndType_eq_ok {pool : ConstantPool} {i : Nat} {name type : String}
    (found : pool.nameAndType i = .ok (name, type)) :
    ∃ j k, pool.get i = .ok (.nameAndType j k) ∧ pool.utf8 j = .ok name ∧
      pool.utf8 k = .ok type := by
  unfold nameAndType at found
  obtain ⟨constant, entry, found⟩ := bind_eq_ok found
  cases constant with
  | nameAndType j k =>
    obtain ⟨name', first, found⟩ := bind_eq_ok found
    obtain ⟨type', second, found⟩ := bind_eq_ok found
    cases found
    exact ⟨j, k, entry, first, second⟩
  | _ => cases found

theorem utf8_ne_zero {pool : ConstantPool} {i : Nat} {value : String}
    (found : pool.utf8 i = .ok value) : i ≠ 0 := by
  rintro rfl
  cases found

/-- An entry is found where a slot holds it. -/
theorem get_eq_ok {pool : ConstantPool} {i : Nat} {constant : Constant}
    (found : pool.get i = .ok constant) : some constant ∈ pool.slots.toList := by
  unfold get at found
  split at found
  · cases found
  cases slot : pool.slots[i]? with
  | none => simp [slot] at found
  | some content =>
    cases content with
    | none => simp [slot] at found
    | some entry =>
      rw [slot] at found
      cases found
      exact List.mem_of_getElem? (by simpa using slot)

end ConstantPool

end ClasspathAudit.Bytecode
