import ClasspathAudit.Proofs.Assembly.Pool

/-!
Writing against a growing pool. `Writes before after act P` is a triple: from a pool whose records
satisfy `before`, the action only adds records, they then satisfy `after`, and what it returns satisfies
`P` in every pool that resolves them. What is written early is read with the finished pool, so `P` speaks
of that pool and not of the one at hand.
-/

namespace ClasspathAudit.Assembly

open Bytecode (Constant ConstantPool)

variable {α β : Type} {before middle after : List Record → Prop}

def Writes (before after : List Record → Prop) (act : Build α) (P : ConstantPool → α → Prop) : Prop :=
  ∀ (p : Pool) (records : List Record), Laid p records → before records →
    ∃ added, Laid (act.run p).2 (added ++ records) ∧ after (added ++ records) ∧
      ∀ pool, Resolves pool (added ++ records) → P pool (act.run p).1

/-- Records of an item can be added without harm. -/
def Absorbs (keeps : List Record → Prop) (item : Item) : Prop :=
  ∀ records constant index, keeps records → keeps (⟨item, constant, index⟩ :: records)

namespace Writes

theorem pure {P : ConstantPool → α → Prop} {a : α} (holds : ∀ pool, P pool a) :
    Writes before before (Pure.pure a) P := by
  intro p records laid start
  exact ⟨[], laid, start, fun pool _ => holds pool⟩

theorem bind {act : Build α} {f : α → Build β} {P : ConstantPool → α → Prop}
    {Q : ConstantPool → β → Prop} (first : Writes before middle act P)
    (second : ∀ a, Writes middle after (f a) fun pool b => P pool a → Q pool b) :
    Writes before after (act >>= f) Q := by
  intro p records laid start
  obtain ⟨added, laid', between, known⟩ := first p records laid start
  obtain ⟨added', laid'', done, known'⟩ := second (act.run p).1 _ _ laid' between
  refine ⟨added' ++ added, ?_, ?_, ?_⟩
  · rw [List.append_assoc]
    exact laid''
  · rw [List.append_assoc]
    exact done
  · intro pool resolves
    rw [List.append_assoc] at resolves
    exact known' pool resolves (known pool (resolves.mono (List.subset_append_right _ _)))

theorem imp {act : Build α} {P Q : ConstantPool → α → Prop} (writes : Writes before after act P)
    (weaker : ∀ pool a, P pool a → Q pool a) : Writes before after act Q := by
  intro p records laid start
  obtain ⟨added, laid', done, known⟩ := writes p records laid start
  exact ⟨added, laid', done, fun pool resolves => weaker pool _ (known pool resolves)⟩

/-- An action followed by a plain computation. -/
theorem map {act : Build α} {g : α → β} {P : ConstantPool → α → Prop} {Q : ConstantPool → β → Prop}
    (writes : Writes before after act P) (carries : ∀ pool a, P pool a → Q pool (g a)) :
    Writes before after (act >>= fun a => Pure.pure (g a)) Q :=
  bind writes fun a => pure fun pool holds => carries pool a holds

/-- An action whose result is not used. -/
theorem discard {act : Build α} {P : ConstantPool → α → Prop} (writes : Writes before after act P) :
    Writes before after (Functor.discard act) fun pool _ => ∃ a, P pool a := by
  intro p records laid start
  obtain ⟨added, laid', done, known⟩ := writes p records laid start
  exact ⟨added, laid', done, fun pool resolves => ⟨_, known pool resolves⟩⟩

/-- Every item of a list has been written, in order. -/
theorem mapM {items : List α} {f : α → Build β} {P : ConstantPool → α → β → Prop}
    (each : ∀ x ∈ items, Writes before before (f x) fun pool => P pool x) :
    Writes before before (items.mapM f) fun pool parts => List.Forall₂ (P pool) items parts := by
  induction items with
  | nil =>
    rw [List.mapM_nil]
    exact pure fun pool => .nil
  | cons x items ih =>
    rw [List.mapM_cons]
    refine bind (each x (by simp)) fun part => ?_
    refine bind (ih fun y member => each y (List.mem_cons_of_mem x member)) fun parts => ?_
    exact pure fun pool rest first => .cons first rest

theorem forM {items : List α} {f : α → Build PUnit} {P : ConstantPool → α → Prop}
    (each : ∀ x ∈ items, Writes before before (f x) fun pool _ => P pool x) :
    Writes before before (items.forM f) fun pool _ => ∀ x ∈ items, P pool x := by
  induction items with
  | nil => exact pure fun pool => by simp
  | cons x items ih =>
    refine bind (each x (by simp)) fun _ => ?_
    refine (ih fun y member => each y (List.mem_cons_of_mem x member)).imp ?_
    intro pool _ rest first y member
    rcases List.mem_cons.mp member with rfl | inRest
    · exact first
    · exact rest y inRest

end Writes

theorem absorbs_append {keeps : List Record → Prop} {added records : List Record}
    (absorbs : ∀ r ∈ added, Absorbs keeps r.item) (start : keeps records) :
    keeps (added ++ records) := by
  induction added with
  | nil => exact start
  | cons r added ih =>
    exact absorbs r (by simp) _ r.constant r.index
      (ih fun r' member => absorbs r' (List.mem_cons_of_mem r member))

/-- An action on the pool that makes records of `items` only and returns an index of `item`. -/
def Places (act : Build Nat) (items : List Item) (item : Item) : Prop :=
  ∀ (p : Pool) (records : List Record), Laid p records →
    ∃ added, Laid (act.run p).2 (added ++ records) ∧ (∀ r ∈ added, r.item ∈ items) ∧
      Stands (added ++ records) item (act.run p).1

/-- Putting an item: an item of the same key is there and lends its index, or a record is made. -/
theorem put_cases {p : Pool} {records : List Record} {item : Item} {constant : Constant} {slots : Nat}
    (laid : Laid p records) (stored : Stored records item constant)
    (size : slots = item.key.slots) :
    (∃ r ∈ records, r.item.key = item.key ∧
        (Pool.put item.key slots constant.bytes).run p = (r.index, p)) ∨
      (∀ r ∈ records, r.item.key ≠ item.key) ∧
        ∃ index p', (Pool.put item.key slots constant.bytes).run p = (index, p') ∧
          Laid p' (⟨item, constant, index⟩ :: records) := by
  subst size
  cases found : p.indices.find? (·.1 = item.key) with
  | some entry =>
    have member := List.mem_of_find?_eq_some found
    have sameKey : entry.1 = item.key := by simpa using List.find?_some found
    rw [laid.indices_eq] at member
    obtain ⟨r, inside, rfl⟩ := List.mem_map.mp member
    refine .inl ⟨r, inside, sameKey, ?_⟩
    simp [Pool.put, StateT.run, found]
  | none =>
    have fresh : ∀ r ∈ records, r.item.key ≠ item.key := by
      intro r inside sameKey
      have member : (r.item.key, r.index) ∈ p.indices := by
        rw [laid.indices_eq]
        exact List.mem_map.mpr ⟨r, inside, rfl⟩
      simpa [sameKey] using List.find?_eq_none.mp found _ member
    refine .inr ⟨fresh, p.next, _, ?_, laid.push stored fresh⟩
    simp [Pool.put, StateT.run, found]

/-- Putting an item that no other shares its key with. -/
theorem put_laid {p : Pool} {records : List Record} {item : Item} {constant : Constant} {slots : Nat}
    (laid : Laid p records) (stored : Stored records item constant) (size : slots = item.key.slots)
    (unique : ∀ r ∈ records, r.item.key = item.key → r.item = item) :
    ∃ added, Laid ((Pool.put item.key slots constant.bytes).run p).2 (added ++ records) ∧
      (∀ r ∈ added, r.item = item) ∧
      Stands (added ++ records) item ((Pool.put item.key slots constant.bytes).run p).1 := by
  rcases put_cases laid stored size with
    ⟨r, inside, sameKey, answer⟩ | ⟨_, index, p', answer, laid'⟩
  · rw [answer]
    refine ⟨[], laid, by simp, r.constant, ?_⟩
    rw [← unique r inside sameKey]
    exact inside
  · rw [answer]
    exact ⟨[⟨item, constant, index⟩], laid', by simp, constant, by simp⟩

theorem utf8_places (value : String) : Places (Pool.utf8 value) [.utf8 value] (.utf8 value) := by
  intro p records laid
  have unique : ∀ r ∈ records, r.item.key = (Item.utf8 value).key → r.item = .utf8 value := by
    intro r _ same
    cases shape : r.item <;> simp_all [Item.key]
  obtain ⟨added, laid', only, stands⟩ := put_laid laid Stored.utf8 rfl unique
  exact ⟨added, laid', fun r member => by simp [only r member], stands⟩

theorem long_places (value : Int) : Places (Pool.long value) [.long value] (.long value) := by
  intro p records laid
  have unique : ∀ r ∈ records, r.item.key = (Item.long value).key → r.item = .long value := by
    intro r _ same
    cases shape : r.item <;> simp_all [Item.key]
  let bits := (value % 0x10000000000000000).toNat
  have low : u4 (bits % 4294967296) = u4 bits := by
    simp only [u4, u2, List.cons_append, List.nil_append, List.cons.injEq, and_true,
      ← UInt8.toNat_inj, UInt8.toNat_ofNat']
    omega
  have stored : Stored records (.long value) (.long (bits / 4294967296) (bits % 4294967296)) :=
    .long (by omega) (by omega)
  obtain ⟨added, laid', only, stands⟩ := put_laid laid stored rfl unique
  simp only [Constant.bytes, low] at laid' stands
  exact ⟨added, laid', fun r member => by simp [only r member], stands⟩

/-- An item that consists of one text. -/
theorem indexed_places {item : Item} {text : String} {make : Nat → Constant}
    (stored : ∀ records i, Stands records (.utf8 text) i → Stored records item (make i))
    (size : 1 = item.key.slots) (unique : ∀ other : Item, other.key = item.key → other = item) :
    Places (do let i ← Pool.utf8 text; Pool.put item.key 1 (make i).bytes)
      [.utf8 text, item] item := by
  intro p records laid
  obtain ⟨added, laid', only, stands⟩ := utf8_places text p records laid
  obtain ⟨added', laid'', only', stands'⟩ :=
    put_laid laid' (stored _ _ stands) size fun r _ same => unique r.item same
  refine ⟨added' ++ added, ?_, ?_, ?_⟩
  · rw [List.append_assoc]
    exact laid''
  · intro r member
    rcases List.mem_append.mp member with new | old
    · simp [only' r new]
    · exact List.mem_cons.mpr (.inl (List.mem_singleton.mp (only r old)))
  · rw [List.append_assoc]
    exact stands'

theorem classInfo_places (name : String) :
    Places (Pool.classInfo name) [.utf8 name, .classInfo name] (.classInfo name) :=
  indexed_places (fun _ _ => .classInfo) rfl fun other same => by
    cases other <;> simp_all [Item.key]

theorem string_places (value : String) :
    Places (Pool.string value) [.utf8 value, .string value] (.string value) :=
  indexed_places (fun _ _ => .string) rfl fun other same => by
    cases other <;> simp_all [Item.key]

theorem methodType_places (descriptor : String) :
    Places (Pool.methodType descriptor) [.utf8 descriptor, .methodType descriptor]
      (.methodType descriptor) :=
  indexed_places (fun _ _ => .methodType) rfl fun other same => by
    cases other <;> simp_all [Item.key]

/-- A placed item can be found in the finished pool. -/
theorem Places.writes {act : Build Nat} {items : List Item} {item : Item}
    {keeps : List Record → Prop} (places : Places act items item)
    (absorbs : ∀ i ∈ items, Absorbs keeps i) :
    Writes keeps keeps act fun pool i => 0 < i ∧ i < 65536 ∧ Denotes pool item i := by
  intro p records laid start
  obtain ⟨added, laid', only, stands⟩ := places p records laid
  exact ⟨added, laid', absorbs_append (fun r member => absorbs _ (only r member)) start,
    fun pool resolves => resolves item _ stands⟩

/-- Bytes that name a class of the pool. -/
def NamesClass (pool : ConstantPool) (name : String) (bytes : List UInt8) : Prop :=
  ∃ i, bytes = u2 i ∧ 0 < i ∧ i < 65536 ∧ pool.className i = .ok (ClassName.internal name)

/-- Bytes that name a text of the pool. -/
def NamesText (pool : ConstantPool) (value : String) (bytes : List UInt8) : Prop :=
  ∃ i, bytes = u2 i ∧ i < 65536 ∧ pool.utf8 i = .ok value

/-- Texts and the given classes can be asked for at any time. -/
structure Welcomes (keeps : List Record → Prop) (classes : List String) : Prop where
  texts : ∀ value, Absorbs keeps (.utf8 value)
  classes : ∀ name ∈ classes, Absorbs keeps (.classInfo (ClassName.internal name))

section

variable {keeps : List Record → Prop} {classes : List String}

theorem classIndex_writes (welcome : Welcomes keeps classes) {name : String}
    (member : name ∈ classes) :
    Writes keeps keeps (classIndex name) fun pool => NamesClass pool name := by
  have absorbs : ∀ i ∈ [Item.utf8 (ClassName.internal name), .classInfo (ClassName.internal name)],
      Absorbs keeps i := by
    intro i inside
    rcases List.mem_pair.mp inside with rfl | rfl
    · exact welcome.texts _
    · exact welcome.classes name member
  exact ((classInfo_places _).writes absorbs).map fun pool i found =>
    ⟨i, rfl, found.1, found.2.1, found.2.2⟩

theorem textIndex_writes (welcome : Welcomes keeps classes) (value : String) :
    Writes keeps keeps (textIndex value) fun pool => NamesText pool value := by
  have absorbs : ∀ i ∈ [Item.utf8 value], Absorbs keeps i := by
    intro i inside
    rw [List.mem_singleton.mp inside]
    exact welcome.texts value
  exact ((utf8_places value).writes absorbs).map fun pool i found =>
    ⟨i, rfl, found.2.1, found.2.2⟩

/-- The items of a counted list stand behind their number. -/
theorem counted_writes {items : List α} {item : α → Build (List UInt8)}
    {P : ConstantPool → α → List UInt8 → Prop}
    (each : ∀ x ∈ items, Writes keeps keeps (item x) fun pool => P pool x) :
    Writes keeps keeps (counted items item) fun pool bytes =>
      ∃ parts, bytes = u2 items.length ++ parts.flatten ∧ List.Forall₂ (P pool) items parts :=
  (Writes.mapM each).map fun _ parts all => ⟨parts, rfl, all⟩

end

end ClasspathAudit.Assembly
