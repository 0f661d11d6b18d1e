import ClasspathAudit.Proofs.Assembly.Attributes

/-!
References in a pool. The entries of a member reference are shared by keys that run texts together, so
which entries a pool has depends on what a class may ask for; under that vocabulary the pool lists the
references in the order they were first asked for.
-/

namespace ClasspathAudit.Assembly

open Bytecode (Constant ConstantPool Effect Scan)
open Bytecode.Scan (Reads)

/-- What a class asks its pool for besides texts and numbers. Class names are external. -/
structure Vocabulary where
  classes : List String
  refs : List MemberRef
  methodTypes : List String

/-- The reference that an item stands for, if it is one. -/
def Item.memberRef? : Item → Option MemberRef
  | member kind owner name descriptor =>
    some { kind, owner := ClassName.external owner, name, descriptor }
  | _ => none

namespace Vocabulary

/-- Class names are plain, types are types, and no two references run together into one key. -/
structure WellFormed (v : Vocabulary) : Prop where
  plain : ∀ name ∈ v.classes, ClassName.IsPlain name
  owners : ∀ r ∈ v.refs, r.owner ∈ v.classes
  noColon : ∀ r ∈ v.refs, ':' ∉ r.name.toList
  distinct : ∀ r ∈ v.refs, ∀ r' ∈ v.refs, r.kind = r'.kind → r.owner = r'.owner →
    r.name ++ r.descriptor = r'.name ++ r'.descriptor → r = r'
  descriptors : ∀ r ∈ v.refs, IsDescriptor r.descriptor
  methodTypes : ∀ type ∈ v.methodTypes, IsDescriptor type

/-- The items that can come to stand in the pool. -/
def Allows (v : Vocabulary) : Item → Prop
  | .classInfo name => ∃ external ∈ v.classes, name = ClassName.internal external
  | .nameAndType name descriptor => ∃ r ∈ v.refs, r.name = name ∧ r.descriptor = descriptor
  | .member kind owner name descriptor =>
    ∃ r ∈ v.refs, r.kind = kind ∧ ClassName.internal r.owner = owner ∧ r.name = name ∧
      r.descriptor = descriptor
  | .methodType type => type ∈ v.methodTypes
  | .moduleInfo _ | .packageInfo _ => False
  | .utf8 _ | .long _ | .string _ => True

/-- A pool of the vocabulary that lists the references `members`. -/
structure Holds (v : Vocabulary) (members : List MemberRef) (records : List Record) : Prop where
  allowed : ∀ r ∈ records, v.Allows r.item
  members : records.reverse.filterMap (fun r => r.item.memberRef?) = members

/-- Takes note of a reference, once. -/
def note (seen : List MemberRef) (r : MemberRef) : List MemberRef :=
  if r ∈ seen then seen else seen ++ [r]

/-- Taking note of references one after the other drops the repeated ones. -/
theorem foldl_note (refs seen : List MemberRef) :
    refs.foldl note seen = seen ++ (refs.filter (· ∉ seen)).eraseDups := by
  induction refs generalizing seen with
  | nil => simp
  | cons r refs ih =>
    rw [List.foldl_cons, ih, note]
    split
    next known => simp [known]
    next fresh =>
      have more : refs.filter (fun x => decide (x ∉ seen ++ [r])) =
          (refs.filter fun x => decide (x ∉ seen)).filter fun x => !x == r := by
        rw [List.filter_filter]
        apply List.filter_congr
        intro x _
        by_cases same : x = r
        · simp [same]
        · simp [same]
      simp only [fresh, not_false_eq_true, decide_true, List.filter_cons_of_pos]
      rw [List.eraseDups_cons, more, List.append_assoc]
      rfl

variable {v : Vocabulary} {seen : List MemberRef}

theorem Holds.absorbs {item : Item} (allowed : v.Allows item) (noMember : item.memberRef? = none) :
    Absorbs (v.Holds seen) item := by
  intro records constant index holds
  refine ⟨?_, ?_⟩
  · intro r member
    rcases List.mem_cons.mp member with rfl | old
    · exact allowed
    · exact holds.allowed r old
  · rw [List.reverse_cons, List.filterMap_append, holds.members]
    simp [noMember]

theorem Holds.welcomes : Welcomes (v.Holds seen) v.classes where
  texts _ := Holds.absorbs trivial rfl
  classes name member := Holds.absorbs ⟨name, member, rfl⟩ rfl

end Vocabulary

/-- A text without colon ends at the first colon. -/
theorem append_colon_inj {name name' rest rest' : List Char} (noColon : ':' ∉ name)
    (noColon' : ':' ∉ name') (same : name ++ ':' :: rest = name' ++ ':' :: rest') :
    name = name' ∧ rest = rest' := by
  induction name generalizing name' with
  | nil =>
    cases name' with
    | nil => simpa using same
    | cons c name' =>
      have first : ':' = c := (List.cons.inj same).1
      exact absurd (by rw [first]; exact List.mem_cons_self) noColon'
  | cons c name ih =>
    cases name' with
    | nil =>
      have first : c = ':' := (List.cons.inj same).1
      exact absurd (by simp [first]) noColon
    | cons c' name' =>
      obtain ⟨first, others⟩ := List.cons.inj same
      have tails := ih (fun member => noColon (List.mem_cons_of_mem c member))
        (fun member => noColon' (List.mem_cons_of_mem c' member)) others
      exact ⟨by rw [first, tails.1], tails.2⟩

namespace Vocabulary

variable {v : Vocabulary} {seen : List MemberRef} {p : Pool} {records : List Record}

/-- Within the vocabulary a name and its type share their key with nothing else. -/
theorem nameAndType_unique (wellFormed : v.WellFormed) {r : MemberRef} (inside : r ∈ v.refs)
    {item : Item} (allowed : v.Allows item)
    (same : item.key = (Item.nameAndType r.name r.descriptor).key) :
    item = .nameAndType r.name r.descriptor := by
  cases item with
  | nameAndType name descriptor =>
    obtain ⟨other, inside', rfl, rfl⟩ := allowed
    have joined : other.name.toList ++ ':' :: other.descriptor.toList =
        r.name.toList ++ ':' :: r.descriptor.toList := by
      have texts := ConstantKey.nameAndType.inj same
      simpa using congrArg String.toList texts
    obtain ⟨names, types⟩ :=
      append_colon_inj (wellFormed.noColon other inside') (wellFormed.noColon r inside) joined
    rw [String.toList_inj.mp names, String.toList_inj.mp types]
  | _ => simp [Item.key] at same

/-- Within the vocabulary a reference shares its key with nothing else. -/
theorem member_unique (wellFormed : v.WellFormed) {r : MemberRef} (inside : r ∈ v.refs)
    {item : Item} (allowed : v.Allows item)
    (same : item.key =
      (Item.member r.kind (ClassName.internal r.owner) r.name r.descriptor).key) :
    item = .member r.kind (ClassName.internal r.owner) r.name r.descriptor := by
  cases item with
  | member kind owner name descriptor =>
    obtain ⟨other, inside', rfl, rfl, rfl, rfl⟩ := allowed
    obtain ⟨tags, owners, joined⟩ := ConstantKey.member.inj same
    have kinds : other.kind = r.kind := by
      cases first : other.kind <;> cases second : r.kind <;>
        simp_all [Pool.memberTag]
    have sameOwner : other.owner = r.owner :=
      ClassName.internal_injective (wellFormed.plain _ (wellFormed.owners other inside')).noSlash
        (wellFormed.plain _ (wellFormed.owners r inside)).noSlash owners
    rw [wellFormed.distinct other inside' r inside kinds sameOwner joined]
  | _ => simp [Item.key] at same

/-- The entry of a reference. -/
def memberConstant : MemberKind → Nat → Nat → Constant
  | .field => .fieldRef
  | .method => .methodRef
  | .interfaceMethod => .interfaceMethodRef

theorem memberConstant_bytes (kind : MemberKind) (i j : Nat) :
    (memberConstant kind i j).bytes = u1 (Pool.memberTag kind) ++ u2 i ++ u2 j := by
  cases kind <;> rfl

theorem memberConstant_stored {kind : MemberKind} {owner name descriptor : String} {i j : Nat}
    (ownerStands : Stands records (.classInfo owner) i)
    (memberStands : Stands records (.nameAndType name descriptor) j) :
    Stored records (.member kind owner name descriptor) (memberConstant kind i j) := by
  cases kind with
  | field => exact .field ownerStands memberStands
  | method => exact .method ownerStands memberStands
  | interfaceMethod => exact .interfaceMethod ownerStands memberStands

theorem nameAndType_laid (wellFormed : v.WellFormed) {r : MemberRef} (inside : r ∈ v.refs)
    (laid : Laid p records) (holds : v.Holds seen records) :
    ∃ added, Laid ((Pool.nameAndType r.name r.descriptor).run p).2 (added ++ records) ∧
      v.Holds seen (added ++ records) ∧
      Stands (added ++ records) (.nameAndType r.name r.descriptor)
        ((Pool.nameAndType r.name r.descriptor).run p).1 := by
  obtain ⟨names, laid', onlyName, nameStands⟩ := utf8_places r.name p records laid
  obtain ⟨types, laid'', onlyType, typeStands⟩ := utf8_places r.descriptor _ _ laid'
  have texts : ∀ s ∈ types ++ names, Absorbs (v.Holds seen) s.item := by
    intro s member
    rcases List.mem_append.mp member with new | old
    · rw [List.mem_singleton.mp (onlyType s new)]
      exact Holds.absorbs trivial rfl
    · rw [List.mem_singleton.mp (onlyName s old)]
      exact Holds.absorbs trivial rfl
  have holds' : v.Holds seen (types ++ (names ++ records)) := by
    rw [← List.append_assoc]
    exact absorbs_append texts holds
  have stored := Stored.nameAndType (nameStands.mono (List.subset_append_right types _)) typeStands
  obtain ⟨pairs, finished, onlyPair, pairStands⟩ := put_laid laid'' stored rfl fun s member same =>
    nameAndType_unique wellFormed inside (holds'.allowed s member) same
  refine ⟨pairs ++ (types ++ names), ?_, ?_, ?_⟩
  · rw [List.append_assoc, List.append_assoc]
    exact finished
  · rw [List.append_assoc, List.append_assoc]
    refine absorbs_append ?_ holds'
    intro s member
    rw [onlyPair s member]
    exact Holds.absorbs ⟨r, inside, rfl, rfl⟩ rfl
  · rw [List.append_assoc, List.append_assoc]
    exact pairStands

/-- A reference that is in the pool already leaves it as it is. -/
theorem Holds.note_known (wellFormed : v.WellFormed) {r : MemberRef} (inside : r ∈ v.refs)
    (holds : v.Holds seen records)
    (known : ∃ s ∈ records, s.item =
      .member r.kind (ClassName.internal r.owner) r.name r.descriptor) :
    v.Holds (note seen r) records := by
  obtain ⟨s, member, shape⟩ := known
  have same : s.item.memberRef? = some r := by
    rw [shape, Item.memberRef?,
      ClassName.external_internal (wellFormed.plain _ (wellFormed.owners r inside)).noSlash]
  have listed : r ∈ seen := by
    rw [← holds.members]
    exact List.mem_filterMap.mpr ⟨s, List.mem_reverse.mpr member, same⟩
  rw [note, if_pos listed]
  exact holds

/-- A reference that is not in the pool yet comes last. -/
theorem Holds.note_fresh (wellFormed : v.WellFormed) {r : MemberRef} (inside : r ∈ v.refs)
    (holds : v.Holds seen records) {constant : Constant} {index : Nat}
    (fresh : ∀ s ∈ records, s.item ≠
      .member r.kind (ClassName.internal r.owner) r.name r.descriptor) :
    v.Holds (note seen r)
      (⟨.member r.kind (ClassName.internal r.owner) r.name r.descriptor, constant, index⟩ ::
        records) := by
  have plain := wellFormed.plain _ (wellFormed.owners r inside)
  have unlisted : r ∉ seen := by
    rw [← holds.members]
    intro listed
    obtain ⟨s, member, same⟩ := List.mem_filterMap.mp listed
    have old := List.mem_reverse.mp member
    cases shape : s.item with
    | member kind owner name descriptor =>
      have allowed := holds.allowed s old
      rw [shape] at allowed same
      obtain ⟨other, inside', rfl, rfl, rfl, rfl⟩ := allowed
      have plain' := wellFormed.plain _ (wellFormed.owners other inside')
      rw [Item.memberRef?, ClassName.external_internal plain'.noSlash] at same
      cases same
      exact fresh s old shape
    | _ => simp [shape, Item.memberRef?] at same
  refine ⟨?_, ?_⟩
  · intro s member
    rcases List.mem_cons.mp member with rfl | old
    · exact ⟨r, inside, rfl, rfl, rfl, rfl⟩
    · exact holds.allowed s old
  · rw [List.reverse_cons, List.filterMap_append, holds.members, note, if_neg unlisted]
    simp [Item.memberRef?, ClassName.external_internal plain.noSlash]

/-- The entry of a reference comes behind those already there, unless it is one of them. -/
theorem put_member_laid (wellFormed : v.WellFormed) {r : MemberRef} (inside : r ∈ v.refs)
    (laid : Laid p records) (holds : v.Holds seen records) {i j : Nat}
    (ownerStands : Stands records (.classInfo (ClassName.internal r.owner)) i)
    (pairStands : Stands records (.nameAndType r.name r.descriptor) j) :
    ∃ added,
      Laid ((Pool.put
        (.member (Pool.memberTag r.kind) (ClassName.internal r.owner) (r.name ++ r.descriptor)) 1
        (u1 (Pool.memberTag r.kind) ++ u2 i ++ u2 j)).run p).2 (added ++ records) ∧
      v.Holds (note seen r) (added ++ records) := by
  have stored : Stored records
      (.member r.kind (ClassName.internal r.owner) r.name r.descriptor) _ :=
    memberConstant_stored ownerStands pairStands
  rw [← memberConstant_bytes]
  change ∃ added, Laid ((Pool.put
    (Item.member r.kind (ClassName.internal r.owner) r.name r.descriptor).key 1 _).run p).2 _ ∧ _
  rcases put_cases laid stored (rfl : 1 = _) with
    ⟨s, old, sameKey, answer⟩ | ⟨fresh, index, p', answer, laid'⟩
  · have same := member_unique wellFormed inside (holds.allowed s old) sameKey
    rw [answer]
    exact ⟨[], laid, holds.note_known wellFormed inside ⟨s, old, same⟩⟩
  · rw [answer]
    refine ⟨[_], laid', ?_⟩
    refine holds.note_fresh wellFormed inside fun s old shape => ?_
    exact fresh s old (by rw [shape])

/-- A reference enters the pool behind those already there, with its owner, its name and its type. -/
theorem member_laid (wellFormed : v.WellFormed) {r : MemberRef} (inside : r ∈ v.refs)
    (laid : Laid p records) (holds : v.Holds seen records) :
    ∃ added,
      Laid ((Pool.member r.kind (ClassName.internal r.owner) r.name r.descriptor).run p).2
        (added ++ records) ∧
      v.Holds (note seen r) (added ++ records) ∧
      (∃ i, Stands (added ++ records) (.classInfo (ClassName.internal r.owner)) i) ∧
      ∃ i, Stands (added ++ records) (.nameAndType r.name r.descriptor) i := by
  obtain ⟨owners, laid', onlyOwner, ownerStands⟩ :=
    classInfo_places (ClassName.internal r.owner) p records laid
  have holds' : v.Holds seen (owners ++ records) := by
    refine absorbs_append (fun s member => ?_) holds
    rcases List.mem_pair.mp (onlyOwner s member) with isText | isClass
    · rw [isText]
      exact Holds.absorbs trivial rfl
    · rw [isClass]
      exact Holds.absorbs ⟨r.owner, wellFormed.owners r inside, rfl⟩ rfl
  obtain ⟨pairs, laid'', holds'', pairStands⟩ := nameAndType_laid wellFormed inside laid' holds'
  have ownerStands' := ownerStands.mono (List.subset_append_right pairs _)
  obtain ⟨members, finished, noted⟩ :=
    put_member_laid wellFormed inside laid'' holds'' ownerStands' pairStands
  have grown := List.subset_append_right members (pairs ++ (owners ++ records))
  have shape : members ++ (pairs ++ (owners ++ records)) =
      (members ++ (pairs ++ owners)) ++ records := by
    simp only [List.append_assoc]
  rw [shape] at finished noted grown
  exact ⟨_, finished, noted, ⟨_, ownerStands'.mono grown⟩, _, pairStands.mono grown⟩

/-- The pool knows the owner of a reference, and its name and type. -/
def Refers (pool : ConstantPool) (r : MemberRef) : Prop :=
  (∃ i, pool.className i = .ok (ClassName.internal r.owner)) ∧
    ∃ i, pool.nameAndType i = .ok (r.name, r.descriptor)

theorem member_writes (wellFormed : v.WellFormed) {r : MemberRef} (inside : r ∈ v.refs) :
    Writes (v.Holds seen) (v.Holds (note seen r))
      (discard (Pool.member r.kind (ClassName.internal r.owner) r.name r.descriptor))
      fun pool _ => Refers pool r := by
  intro p records laid holds
  obtain ⟨added, laid', noted, ⟨i, owner⟩, j, pair⟩ := member_laid wellFormed inside laid holds
  refine ⟨added, laid', noted, fun pool resolves => ?_⟩
  exact ⟨⟨i, (resolves _ i owner).2.2⟩, j, (resolves _ j pair).2.2⟩

/-- The references of a class come to stand in the pool in order, each once. -/
theorem members_writes (wellFormed : v.WellFormed) {refs : List MemberRef} (known : refs ⊆ v.refs) :
    Writes (v.Holds seen) (v.Holds (refs.foldl note seen))
      (refs.forM fun r =>
        discard (Pool.member r.kind (ClassName.internal r.owner) r.name r.descriptor))
      fun pool _ => ∀ r ∈ refs, Refers pool r := by
  induction refs generalizing seen with
  | nil => exact Writes.pure fun pool => by simp
  | cons r refs ih =>
    refine Writes.bind (member_writes wellFormed (known List.mem_cons_self)) fun _ => ?_
    refine (ih fun s member => known (List.mem_cons_of_mem r member)).imp ?_
    intro pool _ rest first s member
    rcases List.mem_cons.mp member with rfl | inRest
    · exact first
    · exact rest s inRest

end Vocabulary

/-- What passing over the entry of an item finds. -/
def Item.effect : Item → Effect
  | classInfo name => Effect.names [ClassName.external name]
  | nameAndType _ descriptor => Effect.names (descriptorNames descriptor)
  | methodType descriptor => Effect.names (descriptorNames descriptor)
  | _ => {}

/-- What passing over the entries of a pool finds. -/
def sweepEffect (records : List Record) : Effect :=
  Effect.all (records.reverse.map fun s => s.item.effect)

theorem mem_sweepEffect {records : List Record} {name : String} :
    name ∈ (sweepEffect records).found.references ↔
      ∃ s ∈ records, name ∈ s.item.effect.found.references := by
  simp [sweepEffect]

theorem annotations_sweepEffect {records : List Record} {name : String} :
    name ∉ (sweepEffect records).found.annotations := by
  rw [sweepEffect, Effect.mem_annotations_all]
  rintro ⟨e, member, marked⟩
  obtain ⟨s, _, rfl⟩ := List.mem_map.mp member
  cases shape : s.item <;> simp [shape, Item.effect] at marked

theorem edit_sweepEffect (records : List Record) : (sweepEffect records).edit = id := by
  refine Effect.edit_all_eq_id fun e member => ?_
  obtain ⟨s, _, rfl⟩ := List.mem_map.mp member
  cases shape : s.item <;> simp [Item.effect]

theorem symbolsFrom_reads {pool : ConstantPool} {entries : List Record}
    (each : ∀ s ∈ entries, Reads (pool.symbolsOf s.constant) [] () s.item.effect) (index : Nat) :
    Reads (pool.symbolsFrom index (entries.flatMap fun s => s.constant.slots)) [] ()
      (Effect.all (entries.map fun s => s.item.effect)) := by
  induction entries generalizing index with
  | nil => exact Reads.pure ()
  | cons s entries ih =>
    have first := Reads.rewording (.inConstant index) (each s List.mem_cons_self)
    have rest := ih fun s' member => each s' (List.mem_cons_of_mem s member)
    rw [List.flatMap_cons, Constant.slots]
    split
    · exact Reads.bind_first first (rest (index + 1 + 1))
    · exact Reads.bind_first first (rest (index + 1))

theorem mapM_memberRef {pool : ConstantPool} {entries : List Record}
    (each : ∀ s ∈ entries, pool.memberRef (some s.constant) = .ok s.item.memberRef?) :
    ∃ found, (entries.flatMap fun s => s.constant.slots).mapM pool.memberRef = .ok found ∧
      found.filterMap id = entries.filterMap fun s => s.item.memberRef? := by
  induction entries with
  | nil => exact ⟨[], rfl, rfl⟩
  | cons s entries ih =>
    have first := each s List.mem_cons_self
    obtain ⟨found, rest, total⟩ := ih fun s' member => each s' (List.mem_cons_of_mem s member)
    have empty : pool.memberRef none = .ok none := rfl
    rw [List.flatMap_cons, List.filterMap_cons, Constant.slots]
    split
    · refine ⟨s.item.memberRef? :: none :: found, ?_, ?_⟩
      · simp only [List.cons_append, List.nil_append, List.mapM_cons, first, empty, rest]
        rfl
      · rw [List.filterMap_cons, List.filterMap_cons, total]
        rfl
    · refine ⟨s.item.memberRef? :: found, ?_, ?_⟩
      · simp only [List.cons_append, List.nil_append, List.mapM_cons, first, rest]
        rfl
      · rw [List.filterMap_cons, total]
        rfl

section

variable {v : Vocabulary} {members : List MemberRef} {p : Pool} {records : List Record}

theorem cells_eq (records : List Record) :
    cells records = records.reverse.flatMap fun s => s.constant.slots := by
  rw [cells, List.flatMap_map]

/-- A pool is passed over entry by entry. -/
theorem sweep_reads (each : ∀ s ∈ records,
      Reads ((poolOf records).symbolsOf s.constant) [] () s.item.effect) :
    Reads (poolOf records).symbols [] () (sweepEffect records) := by
  have swept := symbolsFrom_reads (fun s member => each s (List.mem_reverse.mp member)) 1
  rw [← cells_eq] at swept
  exact swept

/-- The references of a pool stand in it in the order of its entries. -/
theorem memberRefs_of_each (each : ∀ s ∈ records,
      (poolOf records).memberRef (some s.constant) = .ok s.item.memberRef?) :
    (poolOf records).memberRefs = .ok (records.reverse.filterMap fun s => s.item.memberRef?) := by
  obtain ⟨found, read, total⟩ := mapM_memberRef fun s member => each s (List.mem_reverse.mp member)
  rw [← cells_eq] at read
  have slots : (poolOf records).slots.toList = none :: cells records := rfl
  have empty : (poolOf records).memberRef none = .ok none := rfl
  rw [ConstantPool.memberRefs, slots, List.mapM_cons, empty, read, ← total]
  rfl

theorem symbolsOf_classInfo_reads (laid : Laid p records) (small : (cells records).length < 65535)
    {external : String} {i : Nat} (stands : Stands records (.utf8 (ClassName.internal external)) i)
    (nonempty : external ≠ "") (noArray : Text.hasStart "[" external = false) :
    Reads ((poolOf records).symbolsOf (.classInfo i)) [] ()
      (Item.classInfo (ClassName.internal external)).effect := by
  have noArray' : Text.hasStart "[" (ClassName.internal external) = false := by
    rw [ClassName.hasStart_array_internal, noArray]
  exact Reads.bind_still (Reads.lift (laid.utf8_eq small stands))
    (Reads.className noArray' (ClassName.internal_ne_empty nonempty))

theorem symbolsOf_reads (wellFormed : v.WellFormed) (holds : v.Holds members records)
    (laid : Laid p records) (small : (cells records).length < 65535) {s : Record}
    (member : s ∈ records) : Reads ((poolOf records).symbolsOf s.constant) [] () s.item.effect := by
  obtain ⟨item, constant, index⟩ := s
  have stored := laid.stored member
  have allowed := holds.allowed _ member
  simp only at stored allowed ⊢
  cases stored with
  | classInfo name =>
    obtain ⟨external, inside, rfl⟩ := allowed
    have plain := wellFormed.plain external inside
    exact symbolsOf_classInfo_reads laid small name plain.nonempty plain.noArray
  | nameAndType name type =>
    obtain ⟨r, inside, rfl, rfl⟩ := allowed
    exact Reads.bind_still (Reads.lift (laid.utf8_eq small type))
      (descriptor_reads (wellFormed.descriptors r inside))
  | methodType type =>
    exact Reads.bind_still (Reads.lift (laid.utf8_eq small type))
      (descriptor_reads (wellFormed.methodTypes _ allowed))
  | _ => exact Reads.pure ()

/-- Passing over a pool finds what its items mention. -/
theorem symbols_reads (wellFormed : v.WellFormed) (holds : v.Holds members records)
    (laid : Laid p records) (small : (cells records).length < 65535) :
    Reads (poolOf records).symbols [] () (sweepEffect records) :=
  sweep_reads fun _ member => symbolsOf_reads wellFormed holds laid small member

theorem resolve_eq (wellFormed : v.WellFormed) (laid : Laid p records)
    (small : (cells records).length < 65535) {kind : MemberKind} {owner name descriptor : String}
    {i j : Nat} (allowed : v.Allows (.member kind owner name descriptor))
    (ownerStands : Stands records (.classInfo owner) i)
    (pairStands : Stands records (.nameAndType name descriptor) j) :
    ConstantPool.memberRef.resolve (poolOf records) kind i j =
      .ok (Item.member kind owner name descriptor).memberRef? := by
  obtain ⟨r, inside, rfl, rfl, rfl, rfl⟩ := allowed
  have plain := wellFormed.plain _ (wellFormed.owners r inside)
  have noArray : Text.hasStart "[" (ClassName.internal r.owner) = false := by
    rw [ClassName.hasStart_array_internal, plain.noArray]
  have ownerFound : (poolOf records).className i = .ok (ClassName.internal r.owner) :=
    (laid.resolves small _ i ownerStands).2.2
  have pairFound : (poolOf records).nameAndType j = .ok (r.name, r.descriptor) :=
    (laid.resolves small _ j pairStands).2.2
  simp only [ConstantPool.memberRef.resolve, ownerFound, pairFound, bind, Except.bind, noArray]
  rfl

theorem memberRef_eq (wellFormed : v.WellFormed) (holds : v.Holds members records)
    (laid : Laid p records) (small : (cells records).length < 65535) {s : Record}
    (member : s ∈ records) :
    (poolOf records).memberRef (some s.constant) = .ok s.item.memberRef? := by
  obtain ⟨item, constant, index⟩ := s
  have stored := laid.stored member
  have allowed := holds.allowed _ member
  simp only at stored allowed ⊢
  cases stored with
  | field owner pair => exact resolve_eq wellFormed laid small allowed owner pair
  | method owner pair => exact resolve_eq wellFormed laid small allowed owner pair
  | interfaceMethod owner pair => exact resolve_eq wellFormed laid small allowed owner pair
  | _ => rfl

/-- The references of a pool are those it was asked for. -/
theorem memberRefs_eq (wellFormed : v.WellFormed) (holds : v.Holds members records)
    (laid : Laid p records) (small : (cells records).length < 65535) :
    (poolOf records).memberRefs = .ok members := by
  rw [memberRefs_of_each fun _ member => memberRef_eq wellFormed holds laid small member, holds.members]

/-- Every entry of a finished pool comes from a record. -/
theorem record_of_get {i : Nat} {constant : Constant} (found : (poolOf records).get i = .ok constant) :
    ∃ s ∈ records, s.constant = constant := by
  have slot : some constant ∈ none :: cells records := ConstantPool.get_eq_ok found
  rcases List.mem_cons.mp slot with absent | inside
  · cases absent
  · rw [cells_eq] at inside
    obtain ⟨s, member, taken⟩ := List.mem_flatMap.mp inside
    refine ⟨s, List.mem_reverse.mp member, ?_⟩
    unfold Constant.slots at taken
    split at taken
    · simpa [eq_comm] using taken
    · simpa [eq_comm] using taken

theorem mem_sweepEffect_class (laid : Laid p records) (small : (cells records).length < 65535)
    {i : Nat} {name : String} (found : (poolOf records).className i = .ok name) :
    ClassName.external name ∈ (sweepEffect records).found.references := by
  obtain ⟨j, entry, text⟩ := ConstantPool.className_eq_ok found
  obtain ⟨⟨item, constant, index⟩, member, rfl⟩ := record_of_get entry
  refine mem_sweepEffect.mpr ⟨_, member, ?_⟩
  cases laid.stored member with
  | @classInfo name' _ stands =>
    rw [laid.utf8_eq small stands] at text
    cases text
    simp [Item.effect]

theorem mem_sweepEffect_type (laid : Laid p records) (small : (cells records).length < 65535)
    {i : Nat} {name type : String} (found : (poolOf records).nameAndType i = .ok (name, type))
    {mentioned : String} (mention : mentioned ∈ descriptorNames type) :
    mentioned ∈ (sweepEffect records).found.references := by
  obtain ⟨j, k, entry, _, text⟩ := ConstantPool.nameAndType_eq_ok found
  obtain ⟨⟨item, constant, index⟩, member, rfl⟩ := record_of_get entry
  refine mem_sweepEffect.mpr ⟨_, member, ?_⟩
  cases laid.stored member with
  | nameAndType _ stands =>
    rw [laid.utf8_eq small stands] at text
    cases text
    simpa [Item.effect] using mention

theorem mem_sweepEffect_methodType (laid : Laid p records)
    (small : (cells records).length < 65535) {i : Nat} {type : String}
    (found : Denotes (poolOf records) (.methodType type) i) {mentioned : String}
    (mention : mentioned ∈ descriptorNames type) :
    mentioned ∈ (sweepEffect records).found.references := by
  obtain ⟨j, entry, text⟩ := found
  obtain ⟨⟨item, constant, index⟩, member, rfl⟩ := record_of_get entry
  refine mem_sweepEffect.mpr ⟨_, member, ?_⟩
  cases laid.stored member with
  | methodType stands =>
    rw [laid.utf8_eq small stands] at text
    cases text
    simpa [Item.effect] using mention

end

end ClasspathAudit.Assembly
