import ClasspathAudit.Proofs.Bytecode.ConstantPool

/-!
Pools under construction. A pool is laid out by records: what was asked for, the constant that stands
for it and the index it was given. Every constant refers to records made before it, so that the finished
pool, once read, resolves each index to what was asked for.
-/

namespace ClasspathAudit.Assembly

open Bytecode (Constant ConstantPool)

/-- What a pool can be asked for; class names are internal. -/
inductive Item where
  | utf8 (value : String)
  | classInfo (name : String)
  | nameAndType (name descriptor : String)
  | member (kind : MemberKind) (owner name descriptor : String)
  | long (value : Int)
  | string (value : String)
  | methodType (descriptor : String)
  | moduleInfo (name : String)
  | packageInfo (name : String)
deriving DecidableEq

namespace Item

def key : Item → ConstantKey
  | utf8 value => .utf8 value
  | classInfo name => .classInfo name
  | nameAndType name descriptor => .nameAndType (name ++ ":" ++ descriptor)
  | member kind owner name descriptor =>
    .member (Pool.memberTag kind) owner (name ++ descriptor)
  | long value => .long value
  | string value => .string value
  | methodType descriptor => .methodType descriptor
  | moduleInfo name => .named 19 name
  | packageInfo name => .named 20 name

end Item

/-- How many slots the constant of a key takes. -/
def ConstantKey.slots : ConstantKey → Nat
  | long _ => 2
  | _ => 1

/-- An entry of a pool: what was asked for, what was stored and where. -/
structure Record where
  item : Item
  constant : Constant
  index : Nat

/-- An item has its place in the pool. -/
def Stands (records : List Record) (item : Item) (index : Nat) : Prop :=
  ∃ constant, ⟨item, constant, index⟩ ∈ records

theorem Stands.mono {records more : List Record} {item : Item} {index : Nat}
    (stands : Stands records item index) (grown : records ⊆ more) : Stands more item index := by
  obtain ⟨constant, member⟩ := stands
  exact ⟨constant, grown member⟩

/-- The constant that stands for an item, its parts being in the pool already. -/
inductive Stored (records : List Record) : Item → Constant → Prop
  | utf8 {value : String} : Stored records (.utf8 value) (.utf8 value)
  | classInfo {name : String} {i : Nat} :
      Stands records (.utf8 name) i → Stored records (.classInfo name) (.classInfo i)
  | nameAndType {name descriptor : String} {i j : Nat} :
      Stands records (.utf8 name) i → Stands records (.utf8 descriptor) j →
      Stored records (.nameAndType name descriptor) (.nameAndType i j)
  | field {owner name descriptor : String} {i j : Nat} :
      Stands records (.classInfo owner) i → Stands records (.nameAndType name descriptor) j →
      Stored records (.member .field owner name descriptor) (.fieldRef i j)
  | method {owner name descriptor : String} {i j : Nat} :
      Stands records (.classInfo owner) i → Stands records (.nameAndType name descriptor) j →
      Stored records (.member .method owner name descriptor) (.methodRef i j)
  | interfaceMethod {owner name descriptor : String} {i j : Nat} :
      Stands records (.classInfo owner) i → Stands records (.nameAndType name descriptor) j →
      Stored records (.member .interfaceMethod owner name descriptor) (.interfaceMethodRef i j)
  | long {value : Int} {high low : Nat} : high < 4294967296 → low < 4294967296 →
      Stored records (.long value) (.long high low)
  | string {value : String} {i : Nat} :
      Stands records (.utf8 value) i → Stored records (.string value) (.string i)
  | methodType {descriptor : String} {i : Nat} :
      Stands records (.utf8 descriptor) i → Stored records (.methodType descriptor) (.methodType i)
  | moduleInfo {name : String} {i : Nat} :
      Stands records (.utf8 name) i → Stored records (.moduleInfo name) (.moduleInfo i)
  | packageInfo {name : String} {i : Nat} :
      Stands records (.utf8 name) i → Stored records (.packageInfo name) (.packageInfo i)

theorem Stored.slots_length {records : List Record} {item : Item} {constant : Constant}
    (stored : Stored records item constant) : constant.slots.length = item.key.slots := by
  cases stored <;> rfl

theorem Stored.mono {records more : List Record} {item : Item} {constant : Constant}
    (stored : Stored records item constant) (grown : records ⊆ more) :
    Stored more item constant := by
  cases stored with
  | utf8 => exact .utf8
  | classInfo name => exact .classInfo (name.mono grown)
  | nameAndType name type => exact .nameAndType (name.mono grown) (type.mono grown)
  | field owner member => exact .field (owner.mono grown) (member.mono grown)
  | method owner member => exact .method (owner.mono grown) (member.mono grown)
  | interfaceMethod owner member => exact .interfaceMethod (owner.mono grown) (member.mono grown)
  | long high low => exact .long high low
  | string value => exact .string (value.mono grown)
  | methodType type => exact .methodType (type.mono grown)
  | moduleInfo name => exact .moduleInfo (name.mono grown)
  | packageInfo name => exact .packageInfo (name.mono grown)

/-- The pool that the records describe, the latest record first. -/
inductive Laid : Pool → List Record → Prop
  | empty : Laid {} []
  | push {p : Pool} {records : List Record} {item : Item} {constant : Constant} :
      Laid p records → Stored records item constant →
      (∀ r ∈ records, r.item.key ≠ item.key) →
      Laid
        { entries := constant.bytes :: p.entries
          indices := (item.key, p.next) :: p.indices
          next := (p.next + item.key.slots) % 65536 }
        (⟨item, constant, p.next⟩ :: records)

namespace Laid

variable {p : Pool} {records : List Record}

theorem indices_eq (laid : Laid p records) :
    p.indices = records.map fun r => (r.item.key, r.index) := by
  induction laid with
  | empty => rfl
  | push _ _ _ ih => simp [ih]

theorem entries_eq (laid : Laid p records) :
    p.entries = records.map fun r => r.constant.bytes := by
  induction laid with
  | empty => rfl
  | push _ _ _ ih => simp [ih]

theorem stored (laid : Laid p records) {r : Record} (member : r ∈ records) :
    Stored records r.item r.constant := by
  induction laid with
  | empty => simp at member
  | push _ stored _ ih =>
    rcases List.mem_cons.mp member with rfl | earlier
    · exact stored.mono (List.subset_cons_self _ _)
    · exact (ih earlier).mono (List.subset_cons_self _ _)

end Laid

/-- The slots of a pool in order, the unused one excepted. -/
def cells (records : List Record) : List (Option Constant) :=
  (records.reverse.map Record.constant).flatMap Constant.slots

@[simp] theorem cells_cons (r : Record) (records : List Record) :
    cells (r :: records) = cells records ++ r.constant.slots := by
  simp [cells]

/-- How many slots the constants of a pool take together. -/
def Pool.slotCount (p : Pool) : Nat :=
  p.indices.foldr (fun entry total => total + entry.1.slots) 0

namespace Laid

variable {p : Pool} {records : List Record}

theorem cells_length (laid : Laid p records) : (cells records).length = p.slotCount := by
  induction laid with
  | empty => rfl
  | push _ stored _ ih =>
    rw [cells_cons, List.length_append, ih, stored.slots_length]
    rfl

theorem next_eq (laid : Laid p records) : p.next = (1 + (cells records).length) % 65536 := by
  induction laid with
  | empty => rfl
  | push _ stored _ ih =>
    rw [cells_cons, List.length_append, stored.slots_length]
    simp only [ih]
    omega

/-- Each record's constant lies in the slot that its index names. -/
theorem slot_at_index (laid : Laid p records) (small : (cells records).length < 65535) {r : Record}
    (member : r ∈ records) : (none :: cells records)[r.index]? = some (some r.constant) := by
  induction laid with
  | empty => simp at member
  | @push p records item constant earlier stored _ ih =>
    rw [cells_cons, List.length_append] at small
    rw [cells_cons, ← List.cons_append]
    rcases List.mem_cons.mp member with rfl | older
    · have place : (none :: cells records).length = p.next := by
        rw [earlier.next_eq, List.length_cons]
        omega
      simp only
      rw [← place, List.getElem?_append_right (le_refl _), Nat.sub_self, Constant.slots]
      split <;> rfl
    · have found := ih (by omega) older
      obtain ⟨inside, _⟩ := List.getElem?_eq_some_iff.mp found
      rw [List.getElem?_append_left inside]
      exact found

end Laid

/-- The finished pool of some records, as it is read. -/
def poolOf (records : List Record) : ConstantPool :=
  .ofConstants (records.reverse.map Record.constant)

theorem poolOf_get {p : Pool} {records : List Record} (laid : Laid p records)
    (small : (cells records).length < 65535) {r : Record} (member : r ∈ records) :
    (poolOf records).get r.index = .ok r.constant := by
  have slot := laid.slot_at_index small member
  have used : r.index ≠ 0 := by
    intro zero
    rw [zero] at slot
    simp at slot
  have found : (poolOf records).slots[r.index]? = some (some r.constant) := by
    simpa [poolOf, ConstantPool.ofConstants, cells] using slot
  rw [ConstantPool.get, if_neg used, found]

/-- What an index of a read pool stands for. -/
def Denotes (pool : ConstantPool) : Item → Nat → Prop
  | .utf8 value, i => pool.utf8 i = .ok value
  | .classInfo name, i => pool.className i = .ok name
  | .nameAndType name descriptor, i => pool.nameAndType i = .ok (name, descriptor)
  | .methodType descriptor, i =>
    ∃ j, pool.get i = .ok (.methodType j) ∧ pool.utf8 j = .ok descriptor
  | .moduleInfo name, i => pool.moduleOrPackage i = .ok name
  | .packageInfo name, i => pool.moduleOrPackage i = .ok name
  | _, _ => True

/-- The pool knows every record under its index. -/
def Resolves (pool : ConstantPool) (records : List Record) : Prop :=
  ∀ item i, Stands records item i → 0 < i ∧ i < 65536 ∧ Denotes pool item i

theorem Resolves.mono {pool : ConstantPool} {records more : List Record}
    (resolves : Resolves pool more) (grown : records ⊆ more) : Resolves pool records :=
  fun item i stands => resolves item i (stands.mono grown)

namespace Laid

variable {p : Pool} {records : List Record}

theorem stored_at (laid : Laid p records) (small : (cells records).length < 65535) {item : Item}
    {i : Nat} (stands : Stands records item i) :
    ∃ constant, (poolOf records).get i = .ok constant ∧ Stored records item constant := by
  obtain ⟨constant, member⟩ := stands
  exact ⟨constant, poolOf_get laid small member, laid.stored member⟩

theorem index_bounds (laid : Laid p records) (small : (cells records).length < 65535) {item : Item}
    {i : Nat} (stands : Stands records item i) : 0 < i ∧ i < 65536 := by
  obtain ⟨constant, member⟩ := stands
  have found := laid.slot_at_index small member
  obtain ⟨inside, _⟩ := List.getElem?_eq_some_iff.mp found
  refine ⟨?_, ?_⟩
  · rcases Nat.eq_zero_or_pos i with zero | positive
    · rw [zero] at found
      simp at found
    · exact positive
  · simp only [List.length_cons] at inside
    omega

theorem utf8_eq (laid : Laid p records) (small : (cells records).length < 65535) {value : String}
    {i : Nat} (stands : Stands records (.utf8 value) i) : (poolOf records).utf8 i = .ok value := by
  obtain ⟨constant, found, stored⟩ := laid.stored_at small stands
  cases stored
  rw [ConstantPool.utf8, found]
  rfl

/-- A pool resolves the records it was laid out by. -/
theorem resolves (laid : Laid p records) (small : (cells records).length < 65535) :
    Resolves (poolOf records) records := by
  intro item i stands
  obtain ⟨positive, bounded⟩ := laid.index_bounds small stands
  refine ⟨positive, bounded, ?_⟩
  obtain ⟨constant, found, stored⟩ := laid.stored_at small stands
  cases stored with
  | utf8 => exact laid.utf8_eq small stands
  | classInfo name =>
    simp only [Denotes, ConstantPool.className, found]
    exact laid.utf8_eq small name
  | nameAndType name type =>
    simp only [Denotes, ConstantPool.nameAndType, found]
    simp only [bind, Except.bind, laid.utf8_eq small name, laid.utf8_eq small type]
    rfl
  | methodType type => exact ⟨_, found, laid.utf8_eq small type⟩
  | moduleInfo name =>
    simp only [Denotes, ConstantPool.moduleOrPackage, found]
    exact laid.utf8_eq small name
  | packageInfo name =>
    simp only [Denotes, ConstantPool.moduleOrPackage, found]
    exact laid.utf8_eq small name
  | field owner member => trivial
  | method owner member => trivial
  | interfaceMethod owner member => trivial
  | long high low => trivial
  | string value => trivial

theorem constant_fits (laid : Laid p records) (small : (cells records).length < 65535)
    (texts : ∀ value i, Stands records (.utf8 value) i →
      (Text.ModifiedUtf8.encode value).length < 65536)
    {r : Record} (inside : r ∈ records) : r.constant.Fits := by
  have bounded := fun {item i} (stands : Stands records item i) => (laid.index_bounds small stands).2
  obtain ⟨item, constant, index⟩ := r
  have stored := laid.stored inside
  simp only at stored ⊢
  cases stored with
  | utf8 => exact texts _ index ⟨_, inside⟩
  | classInfo name => exact bounded name
  | nameAndType name type => exact ⟨bounded name, bounded type⟩
  | field owner member => exact ⟨bounded owner, bounded member⟩
  | method owner member => exact ⟨bounded owner, bounded member⟩
  | interfaceMethod owner member => exact ⟨bounded owner, bounded member⟩
  | long high low => exact ⟨high, low⟩
  | string value => exact bounded value
  | methodType type => exact bounded type
  | moduleInfo name => exact bounded name
  | packageInfo name => exact bounded name

/-- A finished pool is read back from its bytes. -/
theorem pool_reads (laid : Laid p records) (small : (cells records).length < 65535)
    (texts : ∀ value i, Stands records (.utf8 value) i →
      (Text.ModifiedUtf8.encode value).length < 65536) :
    Bytecode.Scan.Reads ConstantPool.read p.bytes (poolOf records) {} := by
  have fits : ∀ c ∈ records.reverse.map Record.constant, c.Fits := by
    intro c member
    obtain ⟨r, inside, rfl⟩ := List.mem_map.mp member
    exact laid.constant_fits small texts (List.mem_reverse.mp inside)
  have count : p.next = (cells records).length + 1 := by
    rw [laid.next_eq]
    omega
  have content : p.entries.reverse.flatten =
      (records.reverse.map Record.constant).flatMap Constant.bytes := by
    simp [laid.entries_eq, List.flatMap_def, List.map_map, ← List.map_reverse, Function.comp_def]
  rw [Pool.bytes, count, content]
  exact ConstantPool.read_reads fits small

end Laid

end ClasspathAudit.Assembly
