import ClasspathAudit.Proofs.Bytecode.AttributeBounds

/-!
How the bytes of an accepted class file are laid out. Whatever is accepted falls into a header, a pool,
members and tables of attributes, those nested in code included, and each attribute was read within the
length it declares.
-/

namespace ClasspathAudit

namespace Bytecode

open Scan

variable {α β : Type} {pool : ConstantPool} {s s' : Reading}

/-- Bytes that fall into two parts. -/
def Split (front back : List UInt8 → Prop) (bytes : List UInt8) : Prop :=
  ∃ first second, bytes = first ++ second ∧ front first ∧ back second

theorem Split.assoc {first second third : List UInt8 → Prop} {bytes : List UInt8}
    (split : Split first (Split second third) bytes) : Split (Split first second) third bytes := by
  obtain ⟨a, _, rfl, isFirst, b, c, rfl, isSecond, isThird⟩ := split
  exact ⟨a ++ b, c, by simp, ⟨a, b, rfl, isFirst, isSecond⟩, isThird⟩

def Sized (size : Nat) (bytes : List UInt8) : Prop := bytes.length = size

theorem Split.sized {front middle : Nat} {back : List UInt8 → Prop} {bytes : List UInt8}
    (split : Split (Sized front) (Split (Sized middle) back) bytes) :
    Split (Sized (front + middle)) back bytes := by
  obtain ⟨a, _, rfl, rfl, b, c, rfl, rfl, isBack⟩ := split
  exact ⟨a ++ b, c, by simp, by simp [Sized], isBack⟩

/-- Parts one after the other, and how many there are in front. -/
def counted (parts : List (List UInt8)) : List UInt8 := Assembly.u2 parts.length ++ parts.flatten

def Counted (part : List UInt8 → Prop) (bytes : List UInt8) : Prop :=
  ∃ parts, bytes = counted parts ∧ parts.length < 65536 ∧ ∀ bytes ∈ parts, part bytes

namespace Scan

/-- Where two actions end well and leave no mark, neither does the first. -/
theorem run_bind_unmarked {act : Scan α} {f : α → Scan β} [∀ a, Steady (f a)] {b : β}
    (run : (act >>= f).run.run s = (.ok b, s')) (unmarked : s'.cursor.failure = none) :
    ∃ a s₁, act.run.run s = (.ok a, s₁) ∧ s₁.cursor.failure = none ∧
      (f a).run.run s₁ = (.ok b, s') := by
  obtain ⟨a, s₁, first, second⟩ := run_bind_eq_ok run
  exact ⟨a, s₁, first, Steady.sound second unmarked, second⟩

theorem Stays.checkpoint : Stays checkpoint := by
  intro s s' _ run
  rw [(checkpoint_eq_ok run).1]

theorem stays_lift (x : Except Fault α) : Stays (liftM x : Scan α) := .of_blind _

theorem stays_draft (edit : Draft → Draft) : Stays (draft edit) := .of_blind _

/-- Ending well and without mark, an action has taken bytes of a shape from the at most `size` there
were. -/
def Takes (size : Nat) (act : Scan α) (shape : List UInt8 → α → Prop) : Prop :=
  ∀ s s' a, s.cursor.rest.length ≤ size → act.run.run s = (.ok a, s') → s'.cursor.failure = none →
    ∃ taken, s.cursor.rest = taken ++ s'.cursor.rest ∧ shape taken a

namespace Takes

variable {size : Nat}

theorem bind {act : Scan α} {f : α → Scan β} [∀ a, Steady (f a)] {P : List UInt8 → α → Prop}
    {Q : List UInt8 → β → Prop} {R : α → List UInt8 → β → Prop} (first : Takes size act P)
    (second : ∀ a, Takes size (f a) (R a))
    (both : ∀ front back a b, P front a → R a back b → Q (front ++ back) b) :
    Takes size (act >>= f) Q := by
  intro s s' b few run unmarked
  obtain ⟨a, s₁, firstRun, unmarked₁, secondRun⟩ := run_bind_unmarked run unmarked
  obtain ⟨front, split, shape⟩ := first s s₁ a few firstRun unmarked₁
  have few₁ : s₁.cursor.rest.length ≤ size := by
    have := congrArg List.length split
    rw [List.length_append] at this
    omega
  obtain ⟨back, split', shape'⟩ := second a s₁ s' b few₁ secondRun unmarked
  exact ⟨front ++ back, by rw [split, split', List.append_assoc], both front back a b shape shape'⟩

/-- One action after the other takes one part after the other. -/
theorem andThen {act : Scan α} {f : α → Scan β} [∀ a, Steady (f a)] {front back : List UInt8 → Prop}
    (first : Takes size act fun bytes _ => front bytes)
    (second : ∀ a, Takes size (f a) fun bytes _ => back bytes) :
    Takes size (act >>= f) fun bytes _ => Split front back bytes :=
  bind first second fun a b _ _ isFront isBack => ⟨a, b, rfl, isFront, isBack⟩

theorem weaken {act : Scan α} {P Q : List UInt8 → α → Prop} (takes : Takes size act P)
    (imp : ∀ bytes a, P bytes a → Q bytes a) : Takes size act Q := by
  intro s s' a few run unmarked
  obtain ⟨taken, split, shape⟩ := takes s s' a few run unmarked
  exact ⟨taken, split, imp taken a shape⟩

theorem of_stays {act : Scan α} (stays : Stays act) : Takes size act fun bytes _ => bytes = [] := by
  intro s s' a _ run _
  exact ⟨[], by rw [stays s s' a run, List.nil_append], rfl⟩

/-- An action that takes nothing can stand in front of another. -/
theorem still {act : Scan α} {f : α → Scan β} [∀ a, Steady (f a)] {shape : List UInt8 → Prop}
    (stays : Stays act) (second : ∀ a, Takes size (f a) fun bytes _ => shape bytes) :
    Takes size (act >>= f) fun bytes _ => shape bytes := by
  refine bind (of_stays stays) second ?_
  rintro _ back _ _ rfl isBack
  exact isBack

/-- An action that takes nothing can stand behind another. -/
theorem thenStay {act : Scan α} {f : α → Scan β} [∀ a, Steady (f a)] {shape : List UInt8 → Prop}
    (first : Takes size act fun bytes _ => shape bytes) (stays : ∀ a, Stays (f a)) :
    Takes size (act >>= f) fun bytes _ => shape bytes := by
  refine bind first (fun a => of_stays (stays a)) ?_
  rintro front _ _ _ isFront rfl
  rwa [List.append_nil]

theorem bytes_taken {c : Cursor} {count : Nat} (unmarked : (c.bytes count).2.failure = none) :
    c.rest = (c.bytes count).1 ++ (c.bytes count).2.rest ∧ (c.bytes count).1.length = count := by
  obtain ⟨fresh, fits⟩ := Cursor.bytes_of_sound unmarked
  simp [Cursor.bytes, fresh, fits]

theorem skip (count : Nat) : Takes size (Scan.skip count) fun bytes _ => bytes.length = count := by
  intro s s' a _ run unmarked
  cases run
  exact ⟨_, bytes_taken unmarked⟩

theorem u2 : Takes size Scan.u2 fun bytes n => bytes = Assembly.u2 n ∧ n < 65536 := by
  intro s s' a _ run unmarked
  rw [show Scan.u2.run.run s = (.ok (s.cursor.unsigned 2).1,
    { s with cursor := (s.cursor.unsigned 2).2 }) from rfl] at run
  obtain ⟨value, rfl⟩ := Prod.mk.inj run
  obtain ⟨split, two⟩ := bytes_taken unmarked
  refine ⟨_, split, ?_⟩
  cases value
  obtain ⟨high, low, pair⟩ := List.length_eq_two.mp two
  have := high.toNat_lt
  have := low.toNat_lt
  simp only [Cursor.unsigned, pair, Cursor.number, Assembly.u2, List.foldl_cons, List.foldl_nil,
    Nat.zero_mul, Nat.zero_add, List.cons.injEq, ← UInt8.toNat_inj, UInt8.toNat_ofNat', and_true]
  omega

theorem u4 : Takes size Scan.u4 fun bytes n => bytes = Assembly.u4 n ∧ n < 4294967296 := by
  intro s s' a _ run unmarked
  rw [show Scan.u4.run.run s = (.ok (s.cursor.unsigned 4).1,
    { s with cursor := (s.cursor.unsigned 4).2 }) from rfl] at run
  obtain ⟨value, rfl⟩ := Prod.mk.inj run
  obtain ⟨split, four⟩ := bytes_taken unmarked
  refine ⟨_, split, ?_⟩
  cases value
  obtain ⟨a, b, c, d, quartet⟩ := List.length_eq_four.mp four
  have := a.toNat_lt
  have := b.toNat_lt
  have := c.toNat_lt
  have := d.toNat_lt
  simp only [Cursor.unsigned, quartet, Cursor.number, Assembly.u4, Assembly.u2, List.foldl_cons,
    List.foldl_nil, Nat.zero_mul, Nat.zero_add, List.cons_append, List.nil_append, List.cons.injEq,
    ← UInt8.toNat_inj, UInt8.toNat_ofNat', and_true]
  omega

theorem index : Takes size Scan.u2 fun bytes _ => Sized 2 bytes :=
  u2.weaken fun _ _ ⟨same, _⟩ => same ▸ rfl

/-- An action repeated takes part after part. -/
theorem times {act : Scan Unit} [Steady act] {shape : List UInt8 → Prop}
    (each : Takes size act fun bytes _ => shape bytes) (count : Nat) :
    Takes size (Scan.times count act) fun bytes _ =>
      ∃ parts : List (List UInt8), parts.length = count ∧ bytes = parts.flatten ∧
        ∀ part ∈ parts, shape part := by
  induction count with
  | zero =>
    intro s s' a _ run _
    cases run
    exact ⟨[], rfl, [], rfl, rfl, by simp⟩
  | succ count ih =>
    refine bind each (fun _ => ih) ?_
    rintro front _ _ _ first ⟨parts, size, rfl, rest⟩
    exact ⟨front :: parts, by simp [size], by simp, by simpa using ⟨first, rest⟩⟩

/-- A count, that many parts and what follows them. -/
theorem counted {act : Scan Unit} [Steady act] {behind : Scan β} [Steady behind]
    {part back : List UInt8 → Prop} (each : Takes size act fun bytes _ => part bytes)
    (last : Takes size behind fun bytes _ => back bytes) :
    Takes size (do
      let count ← Scan.u2
      Scan.times count act
      behind) fun bytes _ => Split (Counted part) back bytes := by
  refine bind u2 (fun count => andThen (times each count) fun _ => last) ?_
  rintro _ _ count _ ⟨rfl, few⟩ ⟨_, rest, rfl, ⟨parts, rfl, rfl, all⟩, isBack⟩
  exact ⟨Bytecode.counted parts, rest, by simp [Bytecode.counted], ⟨parts, rfl, few, all⟩, isBack⟩

end Takes

end Scan

namespace Attribute

/-- An attribute: the index of its name, the length it declares and that many bytes. -/
def framed (index : Nat) (content : List UInt8) : List UInt8 :=
  Assembly.u2 index ++ Assembly.u4 content.length ++ content

/-- Reading the content of an attribute ends well, and within it unless an enum constant is cut. -/
def InBounds (pool : ConstantPool) (name : String) (content : List UInt8) : Prop :=
  ∃ s s' : Reading, s.cursor = { rest := content } ∧
    (body pool (table pool) name).run.run s = (.ok (), s') ∧
    (s'.cursor.failure ≠ none ↔ name = "AnnotationDefault" ∧ CutEnum content)

/-- The instructions of a method and their length. -/
def Instructions (bytes : List UInt8) : Prop :=
  ∃ instructions, bytes = Assembly.u4 instructions.length ++ instructions

/-- What stands in code before the attributes nested in it: limits, instructions and handlers. -/
def CodeFront : List UInt8 → Prop := Split (Split (Sized 4) Instructions) (Counted (Sized 8))

/-- An attribute that lies within its bounds, as all do that are nested in it. -/
inductive Bounded (pool : ConstantPool) : List UInt8 → Prop
  | plain {index : Nat} {name : String} {content : List UInt8} (named : pool.utf8 index = .ok name)
    (other : name ≠ "Code") (inBounds : InBounds pool name content) : Bounded pool (framed index content)
  | code {index : Nat} {front behind : List UInt8} {nested : List (List UInt8)}
    (named : pool.utf8 index = .ok "Code")
    (inBounds : InBounds pool "Code" (front ++ counted nested ++ behind)) (codeFront : CodeFront front)
    (few : nested.length < 65536) (each : ∀ bytes ∈ nested, Bounded pool bytes) :
    Bounded pool (framed index (front ++ counted nested ++ behind))

/-- A table is not changed by unfolding the first level of nesting. -/
theorem run_table_unfold (s : Reading) :
    (table pool).run.run s = (do
      let count ← u2
      times count (entry pool (table pool))
      checkpoint : Scan Unit).run.run s := by
  have agree : Agree s.cursor.rest.length (tableUpTo pool (s.cursor.rest.length + 1)) (table pool) :=
    fun t few => (run_table_eq (Nat.lt_succ_of_le few)).symm
  have enough : s.cursor.rest.length < s.cursor.rest.length + 1 + 1 := by omega
  rw [run_table_eq enough, tableUpTo]
  refine (Agree.bind (.refl _) fun count => ?_) s le_rfl
  exact .bind ((agree_entry agree).times count) fun _ => .refl _

variable {size : Nat}

theorem takes_handler : Takes size (do
    skip 6
    let caught ← u2
    if caught ≠ 0 then classRef pool caught) fun bytes _ => Sized 8 bytes := by
  refine (Takes.andThen (Takes.skip 6) fun _ => .andThen .index fun caught =>
    .of_stays (.of_blind _)).weaken ?_
  rintro _ _ ⟨a, _, rfl, six, b, _, rfl, two, rfl⟩
  simp_all [Sized]

theorem takes_code {nested : Scan Unit} [Steady nested] {shape : List UInt8 → Prop}
    (takes : Takes size nested fun bytes _ => shape bytes) :
    Takes size (code pool nested) fun bytes _ => Split CodeFront shape bytes := by
  have instructions : ∀ front back length (_ : Unit),
      front = Assembly.u4 length ∧ length < 4294967296 →
      Split (Sized length) (Split (Counted (Sized 8)) shape) back →
      Split Instructions (Split (Counted (Sized 8)) shape) (front ++ back) := by
    rintro _ _ _ _ ⟨rfl, _⟩ ⟨instructions, rest, rfl, rfl, isRest⟩
    exact ⟨_, rest, (List.append_assoc _ _ _).symm, ⟨instructions, rfl⟩, isRest⟩
  unfold code
  exact (Takes.andThen (.skip 4) fun _ => Takes.bind .u4 (fun length => .andThen (.skip length) fun _ =>
    .counted takes_handler takes) instructions).weaken fun _ _ split => split.assoc.assoc

/-- An attribute is bounded if its content was read well, given that tables in it are. -/
theorem bounded_of_run {index : Nat} {name : String} {content : List UInt8} {s s' : Reading}
    (named : pool.utf8 index = .ok name) (start : s.cursor = { rest := content })
    (run : (body pool (table pool) name).run.run s = (.ok (), s'))
    (nested : Takes content.length (table pool) fun bytes _ => Counted (Bounded pool) bytes) :
    Bounded pool (framed index content) := by
  have marked := body_marked checked_table run
  rw [start] at marked
  have inBounds : InBounds pool name content := ⟨s, s', start, run, marked⟩
  by_cases isCode : name = "Code"
  · subst isCode
    have unmarked : s'.cursor.failure = none := checked_code checked_table s s' () run
    obtain ⟨_, split, front, _, rfl, codeFront, parts, rfl, few, each⟩ :=
      takes_code nested s s' () (by rw [start]) run unmarked
    rw [start] at split
    dsimp only at split
    subst split
    exact .code named inBounds codeFront few each
  · exact .plain named isCode inBounds

theorem rewording_eq_ok {f : Fault → Fault} {act : Scan Unit} {s s' : Reading}
    (run : (rewording f act).run.run s = (.ok (), s')) : act.run.run s = (.ok (), s') := by
  rw [run_rewording] at run
  generalize act.run.run s = outcome at run
  obtain ⟨_ | _, _⟩ := outcome <;> cases run
  rfl

/-- The content of an attribute is shorter than what its index and its length stand in front of. -/
theorem content_shorter {s s₁ s₂ : Reading} {index length : Nat}
    (indexRun : u2.run.run s = (.ok index, s₁)) (lengthRun : u4.run.run s₁ = (.ok length, s₂))
    (unmarked : s₂.cursor.failure = none) :
    (s₂.cursor.bytes length).1.length < s.cursor.rest.length := by
  have unmarked₁ := Steady.sound lengthRun unmarked
  obtain ⟨_, front, rfl, _⟩ := Takes.u2 s s₁ index le_rfl indexRun unmarked₁
  obtain ⟨_, middle, rfl, _⟩ := Takes.u4 s₁ s₂ length le_rfl lengthRun unmarked
  have few : (s₂.cursor.bytes length).1.length ≤ s₂.cursor.rest.length := by
    unfold Cursor.bytes
    split <;> simp
  rw [front, middle]
  simp only [Assembly.u2, Assembly.u4, List.length_append, List.length_cons, List.length_nil]
  omega

theorem takes_entry (nested : ∀ smaller < size,
      Takes smaller (table pool) fun bytes _ => Counted (Bounded pool) bytes) :
    Takes size (entry pool (table pool)) fun bytes _ => Bounded pool bytes := by
  intro s s' _ few run unmarked
  obtain ⟨index, s₁, indexRun, run₁⟩ := run_bind_eq_ok run
  obtain ⟨length, s₂, lengthRun, run₂⟩ := run_bind_eq_ok run₁
  obtain ⟨_, s₃, passed, run₃⟩ := run_bind_eq_ok run₂
  obtain ⟨rfl, unmarked₂⟩ := checkpoint_eq_ok passed
  have unmarked₁ := Steady.sound lengthRun unmarked₂
  obtain ⟨_, front, rfl, _⟩ := Takes.u2 s s₁ index le_rfl indexRun unmarked₁
  obtain ⟨_, middle, rfl, _⟩ := Takes.u4 s₁ s₃ length le_rfl lengthRun unmarked₂
  split at run₃
  · cases run₃
  next name named =>
    obtain ⟨fits, t, acted, rfl⟩ := within_eq_ok run₃
    obtain ⟨back, long⟩ := Takes.bytes_taken fits
    have smaller : (s₃.cursor.bytes length).1.length < size :=
      (content_shorter indexRun lengthRun unmarked₂).trans_le few
    refine ⟨framed index (s₃.cursor.bytes length).1, ?_,
      bounded_of_run named rfl (rewording_eq_ok acted) (nested _ smaller)⟩
    rw [framed, long, front, middle, back]
    simp [Cursor.sub]

/-- A table that was read lies within the bounds its attributes declare. -/
theorem takes_table (size : Nat) :
    Takes size (table pool) fun bytes _ => Counted (Bounded pool) bytes := by
  induction size using Nat.strong_induction_on with
  | _ size ih =>
    intro s s' a few run unmarked
    rw [run_table_unfold] at run
    obtain ⟨_, split, parts, _, rfl, shape, rfl⟩ :=
      Takes.counted (takes_entry ih) (.of_stays .checkpoint) s s' a few run unmarked
    exact ⟨parts, by simpa using split, shape⟩

end Attribute

/-- A field or method: its flags, name and type, and its attributes. -/
def MemberShape (pool : ConstantPool) : List UInt8 → Prop :=
  Split (Sized 6) (Counted (Attribute.Bounded pool))

/-- What follows the pool: flags, name and superclass, then interfaces, fields, methods and attributes. -/
def BodyShape (pool : ConstantPool) : List UInt8 → Prop :=
  Split (Sized 6) <| Split (Counted (Sized 2)) <| Split (Counted (MemberShape pool)) <|
    Split (Counted (MemberShape pool)) (Counted (Attribute.Bounded pool))

section

variable {size : Nat}

theorem takes_readMember : Takes size (readMember pool) fun bytes _ => MemberShape pool bytes := by
  unfold readMember
  exact (Takes.andThen .index fun access => .andThen .index fun nameIndex =>
    .still (stays_lift _) fun name => .andThen .index fun typeIndex =>
    .still (stays_lift _) fun type => .still (.of_blind _) fun _ =>
    .thenStay (Attribute.takes_table size) fun _ => .of_blind _).weaken
      fun _ _ split => split.sized.sized

theorem takes_readParent : Takes size (readParent pool) fun bytes _ => Sized 2 bytes := by
  refine Takes.thenStay .index fun index => ?_
  split <;> exact .of_blind _

theorem takes_readInterface : Takes size (readInterface pool) fun bytes _ => Sized 2 bytes :=
  .thenStay .index fun _ => .of_blind _

theorem takes_readField : Takes size (readField pool) fun bytes _ => MemberShape pool bytes :=
  .thenStay takes_readMember fun _ => stays_draft _

theorem takes_readMethod : Takes size (readMethod pool) fun bytes _ => MemberShape pool bytes :=
  .thenStay takes_readMember fun _ => stays_draft _

theorem takes_readStructure : Takes size (readStructure pool) fun bytes _ => BodyShape pool bytes := by
  unfold readStructure
  exact (Takes.andThen .index fun access => .still (stays_draft _) fun _ =>
    .andThen .index fun this => .still (stays_lift _) fun name => .still (stays_draft _) fun _ =>
    .andThen takes_readParent fun _ => .counted takes_readInterface <|
    .still .checkpoint fun _ => .counted takes_readField <| .counted takes_readMethod <|
    Attribute.takes_table size).weaken fun _ _ split => split.sized.sized

end

end Bytecode

namespace ClassFile

open Bytecode

/-- Header and pool of a class file, read to where its body starts. -/
def Opens (bytes : List UInt8) (pool : ConstantPool) (body : List UInt8) : Prop :=
  ∃ (major minor : Nat) (s₁ s₂ : Reading),
    readHeader.run.run { cursor := { rest := bytes } } = (.ok (.versioned major minor), s₁) ∧
    ConstantPool.read.run.run s₁ = (.ok pool, s₂) ∧ s₂.cursor.rest = body

variable {bytes : List UInt8} {c : JavaClass} {m : Option ModuleDescriptor}

theorem accepted_shape (accepted : parse bytes = .accepted c m) :
    ∃ pool body, Opens bytes pool body ∧ BodyShape pool body := by
  obtain ⟨major, minor, pool, refs, s₁, s₂, s₃, s₄, header, -, constants, body, -⟩ :=
    parse_eq_accepted accepted
  obtain ⟨walked, ended⟩ := readBody_eq_ok body
  obtain ⟨taken, split, shape⟩ := takes_readStructure s₂ s₃ () le_rfl walked
    (checked_readStructure s₂ s₃ () walked)
  rw [ended, List.append_nil] at split
  exact ⟨pool, taken, ⟨major, minor, s₁, s₂, header, constants, split⟩, shape⟩

/-- An attribute that is accepted was read within the length it declares, and so was every attribute of
an accepted class file, but for a default value: of one that is an enum constant the name may be cut. -/
theorem attributes_withinBounds (pool : ConstantPool) (name : String) (content bytes : List UInt8) :
    (∀ s s' : Reading, s.cursor = { rest := content } →
      (Attribute.body pool (Attribute.table pool) name).run.run s = (.ok (), s') →
      (s'.cursor.failure ≠ none ↔ name = "AnnotationDefault" ∧ Attribute.CutEnum content)) ∧
    ∀ (c : JavaClass) (m : Option ModuleDescriptor), parse bytes = .accepted c m →
      ∃ pool body, Opens bytes pool body ∧ BodyShape pool body := by
  refine ⟨?_, fun c m accepted => accepted_shape accepted⟩
  intro s s' start run
  have marked := Attribute.body_marked Attribute.checked_table run
  rwa [start] at marked

theorem ended_well {outcome : Except Fault Unit × Reading} (well : outcome.1.toBool = true) :
    outcome = (.ok (), outcome.2) := by
  obtain ⟨_ | _, _⟩ := outcome
  · cases well
  · rfl

theorem attributes_withinBounds_account :
    (∃ s', (Attribute.body ⟨#[]⟩ (Attribute.table ⟨#[]⟩) "Exceptions").run.run
        { cursor := { rest := [0, 0] } } = (.ok (), s') ∧ s'.cursor.failure = none) ∧
      (parse account.bytes).failure? = none ∧
      ∃ pool body, Opens account.bytes pool body ∧ BodyShape pool body := by
  constructor
  · obtain ⟨s', run⟩ : ∃ s', (Attribute.body ⟨#[]⟩ (Attribute.table ⟨#[]⟩) "Exceptions").run.run
        { cursor := { rest := [0, 0] } } = (.ok (), s') := ⟨_, ended_well (by decide +kernel)⟩
    have marked := (attributes_withinBounds ⟨#[]⟩ "Exceptions" [0, 0] account.bytes).1 _ s' rfl run
    have other : "Exceptions" ≠ "AnnotationDefault" := by decide
    exact ⟨s', run, not_not.mp fun failed => other (marked.mp failed).1⟩
  have sound : (parse account.bytes).failure?.isNone = true := by decide +kernel
  cases outcome : parse account.bytes with
  | accepted c m =>
    exact ⟨rfl, (attributes_withinBounds ⟨#[]⟩ "Exceptions" [0, 0] account.bytes).2 c m outcome⟩
  | degraded c m =>
    rw [outcome] at sound
    cases sound
  | malformed defect =>
    rw [outcome] at sound
    cases sound

open Assembly in
/-- The annotation type `A`, whose method `m` has a default value that says to be a constant of the enum
`E` and ends there. -/
def enumDefault : List UInt8 :=
  classFile 52 do
    let this ← classIndex "A"
    let parent ← classIndex ClassName.object
    let name ← textIndex "m"
    let type ← textIndex "()LE;"
    let enum ← textIndex "LE;"
    let table ← attributeTable [⟨"AnnotationDefault", 101 :: enum⟩]
    return u2 0x2601 ++ this ++ parent ++ u2 0 ++ u2 0 ++ u2 1 ++ u2 0x401 ++ name ++ type ++ table ++
      u2 0

/-- A default value that is cut is accepted, and so is the class file that holds it. -/
theorem enumDefault_accepted :
    (parse enumDefault).failure? = none ∧
      ∃ s', (Attribute.body ⟨#[none, some (.utf8 "LE;")]⟩ (Attribute.table ⟨#[none, some (.utf8 "LE;")]⟩)
          "AnnotationDefault").run.run { cursor := { rest := [101, 0, 1] } } = (.ok (), s') ∧
        s'.cursor.failure = some ⟨3, 2, 0⟩ := by
  constructor
  · exact Option.isNone_iff_eq_none.mp (by decide +kernel)
  · exact ⟨_, ended_well (by decide +kernel), by decide +kernel⟩

end ClassFile

end ClasspathAudit
