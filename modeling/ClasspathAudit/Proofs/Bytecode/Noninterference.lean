import ClasspathAudit.Proofs.Bytecode.FileParts
import ClasspathAudit.Proofs.Bytecode.TwoRuns

/-!
Attributes that are not recognised do not interfere. Two class files that differ in such attributes alone,
on whatever level, and in the instructions of their methods are read to the same end: with the same failure,
or with classes that differ in their hash and their size alone.
-/

namespace ClasspathAudit

namespace Bytecode

open Scan

variable {pool : ConstantPool}

/-- The names of the attributes that are read. -/
def recognised : List String :=
  ["Signature", "Exceptions", "InnerClasses", "Code", "LocalVariableTable", "LocalVariableTypeTable",
    "RuntimeVisibleAnnotations", "RuntimeInvisibleAnnotations", "RuntimeVisibleParameterAnnotations",
    "RuntimeInvisibleParameterAnnotations", "RuntimeVisibleTypeAnnotations",
    "RuntimeInvisibleTypeAnnotations", "AnnotationDefault", "Module", "ModulePackages"]

namespace AttributePart

/-- The attribute has a name, and it is none that is read. -/
def Unrecognised (pool : ConstantPool) (a : AttributePart) : Prop :=
  ∃ name, pool.utf8 a.index.toNat = .ok name ∧ name ∉ recognised

/-- Tables that differ in attributes that are not recognised and in instructions. -/
inductive Alike (pool : ConstantPool) : List AttributePart → List AttributePart → Prop
  | nil : Alike pool [] []
  | keep {as bs : List AttributePart} (a : AttributePart) (rest : Alike pool as bs) :
    Alike pool (a :: as) (a :: bs)
  | code {index maxStack maxLocals : UInt16} {instructions instructions' : List UInt8}
    {handlers : List HandlerPart} {nested nested' as bs : List AttributePart}
    (named : pool.utf8 index.toNat = .ok "Code") (inner : Alike pool nested nested')
    (rest : Alike pool as bs) :
    Alike pool (.code index maxStack maxLocals instructions handlers nested :: as)
      (.code index maxStack maxLocals instructions' handlers nested' :: bs)
  | left {as bs : List AttributePart} {a : AttributePart} (unrecognised : Unrecognised pool a)
    (rest : Alike pool as bs) : Alike pool (a :: as) bs
  | right {as bs : List AttributePart} {b : AttributePart} (unrecognised : Unrecognised pool b)
    (rest : Alike pool as bs) : Alike pool as (b :: bs)

theorem length_parts (as : List AttributePart) : (parts as).length = as.length := by
  induction as with
  | nil => rfl
  | cons a as ih => rw [parts, List.length_cons, List.length_cons, ih]

theorem content_code (index maxStack maxLocals : UInt16) (instructions : List UInt8)
    (handlers : List HandlerPart) (nested : List AttributePart) :
    (code index maxStack maxLocals instructions handlers nested).content =
      (indexBytes maxStack ++ indexBytes maxLocals) ++ (Assembly.u4 instructions.length ++ (instructions ++
        (Assembly.u2 handlers.length ++ ((handlers.map HandlerPart.bytes).flatten ++ table nested)))) := by
  simp only [content, counted, table, List.append_assoc, List.length_map]

theorem fits_code {index maxStack maxLocals : UInt16} {instructions : List UInt8}
    {handlers : List HandlerPart} {nested : List AttributePart}
    (fits : (code index maxStack maxLocals instructions handlers nested).fits = true) :
    instructions.length < 4294967296 ∧ handlers.length < 65536 ∧ nested.length < 65536 ∧
      allFit nested = true := by
  simp only [AttributePart.fits, Bool.and_eq_true, decide_eq_true_eq] at fits
  obtain ⟨⟨⟨small, fewHandlers⟩, few⟩, inner⟩ := fits
  rw [content_code] at small
  simp only [List.length_append] at small
  exact ⟨by omega, fewHandlers, few, inner⟩

theorem content_small {a : AttributePart} (fits : a.fits = true) : a.content.length < 4294967296 := by
  cases a with
  | plain index content => simpa [AttributePart.fits, AttributePart.content] using fits
  | code index maxStack maxLocals instructions handlers nested =>
    simp only [AttributePart.fits, Bool.and_eq_true, decide_eq_true_eq] at fits
    exact fits.1.1.1

end AttributePart

/-- Fields or methods that differ in their tables of attributes. -/
structure MemberPart.Alike (pool : ConstantPool) (m m' : MemberPart) : Prop where
  access : m'.access = m.access
  name : m'.name = m.name
  type : m'.type = m.type
  attributes : AttributePart.Alike pool m.attributes m'.attributes

/-- Class files that differ in the tables of attributes of their members and in their own. -/
structure FileParts.Alike (f g : FileParts) : Prop where
  front : g = { f with fields := g.fields, methods := g.methods, attributes := g.attributes }
  fields : List.Forall₂ (MemberPart.Alike f.pool) f.fields g.fields
  methods : List.Forall₂ (MemberPart.Alike f.pool) f.methods g.methods
  attributes : AttributePart.Alike f.pool f.attributes g.attributes

namespace Scan.Mirrors

theorem times_items {β : Type} {act : Scan Unit} {xs ys : List β} {R : β → β → Prop}
    (bytes : β → List UInt8) (paired : List.Forall₂ R xs ys)
    (each : ∀ x ∈ xs, ∀ y ∈ ys, R x y → Mirrors act (bytes x) act (bytes y)) :
    Mirrors (Scan.times xs.length act) (xs.map bytes).flatten (Scan.times ys.length act)
      (ys.map bytes).flatten := by
  induction paired with
  | nil => exact of_blind (Pure.pure ())
  | cons first _ ih =>
    refine bind (each _ List.mem_cons_self _ List.mem_cons_self first) fun _ => ih ?_
    intro x member y member'
    exact each x (List.mem_cons_of_mem _ member) y (List.mem_cons_of_mem _ member')

end Scan.Mirrors

namespace Attribute

theorem body_unrecognised {nested : Scan Unit} {name : String} (unrecognised : name ∉ recognised) :
    body pool nested name = checkpoint := by
  unfold body
  split
  case h_16 => rfl
  all_goals exact absurd (by decide) unrecognised

/-- An attribute that is not recognised is passed over. -/
theorem entry_reads_unrecognised {nested : Scan Unit} {a : AttributePart}
    (unrecognised : a.Unrecognised pool) (small : a.content.length < 4294967296) :
    Reads (entry pool nested) (framed a.index.toNat a.content) () {} := by
  obtain ⟨name, named, other⟩ := unrecognised
  unfold framed
  rw [List.append_assoc]
  refine Reads.bind_silent (.u2 a.index.toNat_lt) (.bind_silent (.u4 small) (.bind_still .checkpoint ?_))
  rw [named]
  dsimp only
  rw [body_unrecognised other]
  exact Reads.within_front (List.nil_append _).symm (.rewording _ .checkpoint)

theorem mirrors_entry {nested : Scan Unit} {index : UInt16} {content content' : List UInt8}
    (small : content.length < 4294967296) (small' : content'.length < 4294967296)
    (inner : ∀ name, pool.utf8 index.toNat = .ok name →
      Mirrors (within content.length (rewording (.inAttribute name) (body pool nested name))) content
        (within content'.length (rewording (.inAttribute name) (body pool nested name))) content') :
    Mirrors (entry pool nested) (framed index.toNat content) (entry pool nested)
      (framed index.toNat content') := by
  unfold framed
  rw [List.append_assoc, List.append_assoc]
  refine .both (.u2 index.toNat_lt) (.u2 index.toNat_lt)
    (.both (.u4 small) (.u4 small') (.checkpoint ?_))
  cases named : pool.utf8 index.toNat with
  | error cause => exact .throw _ _ _
  | ok name => exact inner name named

theorem mirrors_handler (h : HandlerPart) :
    Mirrors (do
      skip 6
      let caught ← u2
      if caught ≠ 0 then classRef pool caught) h.bytes (do
      skip 6
      let caught ← u2
      if caught ≠ 0 then classRef pool caught) h.bytes := by
  refine .both (.skip rfl) (.skip rfl) ?_
  rw [show indexBytes h.caught = indexBytes h.caught ++ [] from (List.append_nil _).symm]
  exact .both (.u2 h.caught.toNat_lt) (.u2 h.caught.toNat_lt) (.of_blind _)

/-- Code with other instructions, and with attributes inside that make no difference. -/
theorem mirrors_code {index maxStack maxLocals : UInt16} {instructions instructions' : List UInt8}
    {handlers : List HandlerPart} {nested nested' : List AttributePart}
    (small : instructions.length < 4294967296) (small' : instructions'.length < 4294967296)
    (few : handlers.length < 65536)
    (inner : Mirrors (table pool) (AttributePart.table nested) (table pool)
      (AttributePart.table nested')) :
    Mirrors (code pool (table pool))
      (AttributePart.code index maxStack maxLocals instructions handlers nested).content
      (code pool (table pool))
      (AttributePart.code index maxStack maxLocals instructions' handlers nested').content := by
  rw [AttributePart.content_code, AttributePart.content_code]
  refine .both (.skip rfl) (.skip rfl) (.both (.u4 small) (.u4 small') (.both (.skip rfl) (.skip rfl)
    (.both (.u2 few) (.u2 few) (.bind ?_ fun _ => inner))))
  exact .times_items HandlerPart.bytes (List.forall₂_same.mpr fun h _ => rfl)
    fun h _ h' _ same => same ▸ mirrors_handler h

/-- Tables, given that their attributes one after the other are read alike. -/
theorem mirrors_table {as bs : List AttributePart} (few : as.length < 65536) (few' : bs.length < 65536)
    (entries : Mirrors (times as.length (entry pool (table pool))) (AttributePart.parts as).flatten
      (times bs.length (entry pool (table pool))) (AttributePart.parts bs).flatten) :
    Mirrors (table pool) (AttributePart.table as) (table pool) (AttributePart.table bs) := by
  refine Mirrors.congr ?_ run_table_unfold run_table_unfold
  unfold AttributePart.table counted
  rw [AttributePart.length_parts, AttributePart.length_parts]
  refine .both (.u2 few) (.u2 few') ?_
  have checks : Mirrors checkpoint [] checkpoint [] := .of_reads .checkpoint .checkpoint
  have checked := entries.bind fun _ => checks
  rwa [List.append_nil, List.append_nil] at checked

/-- Attributes one after the other: those that are not recognised are passed over on their side, and what
is nested in code is told by the same induction. -/
theorem mirrors_entries {as bs : List AttributePart} (alike : AttributePart.Alike pool as bs)
    (fits : AttributePart.allFit as = true) (fits' : AttributePart.allFit bs = true) :
    Mirrors (times as.length (entry pool (table pool))) (AttributePart.parts as).flatten
      (times bs.length (entry pool (table pool))) (AttributePart.parts bs).flatten := by
  induction alike with
  | nil => exact .of_blind (pure ())
  | keep a rest ih =>
    simp only [AttributePart.allFit, Bool.and_eq_true] at fits fits'
    have small := AttributePart.content_small fits.1
    exact .bind (mirrors_entry small small fun _ _ => .within_same _ _) fun _ => ih fits.2 fits'.2
  | code named inner rest ihInner ihRest =>
    simp only [AttributePart.allFit, Bool.and_eq_true] at fits fits'
    refine .bind (mirrors_entry (AttributePart.content_small fits.1) (AttributePart.content_small fits'.1)
      fun name named' => ?_) fun _ => ihRest fits.2 fits'.2
    obtain rfl : "Code" = name := Except.ok.inj (named.symm.trans named')
    obtain ⟨small, fewHandlers, few, fitInner⟩ := AttributePart.fits_code fits.1
    obtain ⟨small', -, few', fitInner'⟩ := AttributePart.fits_code fits'.1
    exact .within (.rewording _ (mirrors_code small small' fewHandlers
      (mirrors_table few few' (ihInner fitInner fitInner'))))
  | left unrecognised rest ih =>
    simp only [AttributePart.allFit, Bool.and_eq_true] at fits
    exact .left (entry_reads_unrecognised unrecognised (AttributePart.content_small fits.1))
      (ih fits.2 fits')
  | right unrecognised rest ih =>
    simp only [AttributePart.allFit, Bool.and_eq_true] at fits'
    exact .right (entry_reads_unrecognised unrecognised (AttributePart.content_small fits'.1))
      (ih fits fits'.2)

/-- Tables that are alike. -/
theorem mirrors_table_of_alike {as bs : List AttributePart} (alike : AttributePart.Alike pool as bs)
    (few : as.length < 65536) (few' : bs.length < 65536) (fits : AttributePart.allFit as = true)
    (fits' : AttributePart.allFit bs = true) :
    Mirrors (table pool) (AttributePart.table as) (table pool) (AttributePart.table bs) :=
  mirrors_table few few' (mirrors_entries alike fits fits')

end Attribute

theorem mirrors_readMember {m m' : MemberPart} (alike : m.Alike pool m') (fits : m.fits = true)
    (fits' : m'.fits = true) : Mirrors (readMember pool) m.bytes (readMember pool) m'.bytes := by
  simp only [MemberPart.fits, Bool.and_eq_true, decide_eq_true_eq] at fits fits'
  have table := Attribute.mirrors_table_of_alike alike.attributes fits.1 fits'.1 fits.2 fits'.2
  unfold MemberPart.bytes
  rw [alike.access, alike.name, alike.type]
  simp only [List.append_assoc]
  have index : ∀ i : UInt16, Reads u2 (indexBytes i) i.toNat {} := fun i => .u2 i.toNat_lt
  exact .both (index _) (index _) <| .both (index _) (index _) <| .still fun _ =>
    .both (index _) (index _) <| .still fun _ => .still fun _ => .thenStill table

theorem mirrors_readParent (parent : UInt16) :
    Mirrors (readParent pool) (indexBytes parent) (readParent pool) (indexBytes parent) := by
  rw [← List.append_nil (indexBytes parent)]
  exact .both (.u2 parent.toNat_lt) (.u2 parent.toNat_lt) (.of_blind _)

theorem mirrors_readInterface (interface : UInt16) :
    Mirrors (readInterface pool) (indexBytes interface) (readInterface pool) (indexBytes interface) := by
  rw [← List.append_nil (indexBytes interface)]
  exact .both (.u2 interface.toNat_lt) (.u2 interface.toNat_lt) (.of_blind _)

theorem mirrors_members {xs ys : List MemberPart} {keep : Member → Draft → Draft}
    (alike : List.Forall₂ (MemberPart.Alike pool) xs ys) (fits : xs.all MemberPart.fits = true)
    (fits' : ys.all MemberPart.fits = true) :
    Mirrors (times xs.length (readMember pool >>= fun m => draft (keep m)))
      (xs.map MemberPart.bytes).flatten
      (times ys.length (readMember pool >>= fun m => draft (keep m)))
      (ys.map MemberPart.bytes).flatten :=
  .times_items MemberPart.bytes alike fun x member y member' paired =>
    .thenStill (mirrors_readMember paired (List.all_eq_true.mp fits x member)
      (List.all_eq_true.mp fits' y member'))

theorem mirrors_readStructure {f g : FileParts} (alike : f.Alike g) (fits : f.fits = true)
    (fits' : g.fits = true) :
    Mirrors (readStructure f.pool) f.body (readStructure f.pool) g.body := by
  obtain ⟨front, fields, methods, attributes⟩ := alike
  simp only [FileParts.fits, Bool.and_eq_true, decide_eq_true_eq] at fits fits'
  obtain ⟨⟨⟨⟨⟨⟨fewInterfaces, fewFields⟩, fitFields⟩, fewMethods⟩, fitMethods⟩, few⟩, fit⟩ := fits
  obtain ⟨⟨⟨⟨⟨⟨-, fewFields'⟩, fitFields'⟩, fewMethods'⟩, fitMethods'⟩, few'⟩, fit'⟩ := fits'
  have same : g.access = f.access ∧ g.this = f.this ∧ g.parent = f.parent ∧
      g.interfaces = f.interfaces := by
    rw [front]
    exact ⟨rfl, rfl, rfl, rfl⟩
  obtain ⟨access, this, parent, interfaces⟩ := same
  unfold FileParts.body counted
  rw [access, this, parent, interfaces]
  simp only [List.append_assoc, List.length_map]
  have index : ∀ i : UInt16, Reads u2 (indexBytes i) i.toNat {} := fun i => .u2 i.toNat_lt
  have each : ∀ i ∈ f.interfaces, ∀ i' ∈ f.interfaces, i = i' →
      Mirrors (readInterface f.pool) (indexBytes i) (readInterface f.pool) (indexBytes i') :=
    fun i _ i' _ same => same ▸ mirrors_readInterface i
  have listed := Mirrors.times_items indexBytes (List.forall₂_same.mpr fun i _ => rfl) each
  have table := Attribute.mirrors_table_of_alike attributes few few' fit fit'
  unfold readStructure
  exact .both (index _) (index _) <| .still fun _ => .both (index _) (index _) <| .still fun _ =>
    .still fun _ => .bind (mirrors_readParent _) fun _ => .both (.u2 fewInterfaces) (.u2 fewInterfaces) <|
    .bind listed fun _ => .checkpoint <| .both (.u2 fewFields) (.u2 fewFields') <|
    .bind (mirrors_members fields fitFields fitFields') fun _ =>
    .both (.u2 fewMethods) (.u2 fewMethods') <|
    .bind (mirrors_members methods fitMethods fitMethods') fun _ => table

/-- A structure that is read to the last byte on both sides has nothing behind it. -/
theorem readBody_alike {s s' : Reading} (walked : EndAlike [] []
      ((readStructure pool).run.run s) ((readStructure pool).run.run s')) :
    EndAlike [] [] ((readBody pool).run.run s) ((readBody pool).run.run s') := by
  rw [readBody, run_bind, run_bind]
  generalize (readStructure pool).run.run s = end_, (readStructure pool).run.run s' = end' at walked ⊢
  cases walked with
  | error twin => exact .error twin
  | ok twin stands stands' =>
    simp only [readEnd, run_bind, run_get, stands.front, stands'.front, List.length_nil, ne_eq,
      not_true_eq_false, if_false, run_pure]
    exact .ok twin stands stands'

end Bytecode

/-- A class without the marks of the bytes it was read from. -/
def JavaClass.unstamped (c : JavaClass) : JavaClass := { c with hash := 0, size := 0 }

theorem JavaClass.eq_of_unstamped {c c' : JavaClass} (same : c.unstamped = c'.unstamped) :
    c' = { c with hash := c'.hash, size := c'.size } := by
  cases c
  cases c'
  cases same
  rfl

namespace ClassFile

open Bytecode Scan

def Parsed.unstamped : Parsed → Parsed
  | accepted c m => accepted c.unstamped m
  | degraded c m => degraded c.unstamped m
  | malformed defect => malformed defect

section

variable {p : Parsed}

theorem class?_unstamped : p.unstamped.class? = p.class?.map JavaClass.unstamped := by
  cases p <;> rfl

theorem failure?_unstamped : p.unstamped.failure? = p.failure? := by
  cases p <;> rfl

theorem accepts_unstamped : p.unstamped.Accepts ↔ p.Accepts := by
  cases p <;> simp [Parsed.Accepts, Parsed.unstamped, Parsed.class?, Parsed.failure?, JavaClass.unstamped]

theorem degrades_unstamped : p.unstamped.Degrades ↔ p.Degrades := by
  rw [Parsed.Degrades, Parsed.Degrades, failure?_unstamped, class?_unstamped]
  simp [JavaClass.unstamped]

theorem rejects_unstamped : p.unstamped.Rejects ↔ p.Rejects := by
  rw [Parsed.Rejects, Parsed.Rejects, failure?_unstamped, class?_unstamped, Option.map_eq_none_iff]

end

/-- A module descriptor does not depend on the marks of the bytes. -/
theorem parseModule_unstamped (bytes : List UInt8) :
    parseModule bytes = match (parse bytes).unstamped with
      | .malformed defect => .error defect.failure
      | .accepted c found | .degraded c found =>
        match found with
        | some m => .ok m
        | none => .error (.coded .malformedClassFile (c.name ++ " is not a module descriptor")) := by
  rw [parseModule]
  cases parse bytes <;> rfl

/-- A file in parts is read from its header and its pool on. -/
theorem parse_parts (f : FileParts) :
    ∃ s : Reading, s.Stands f.body ∧ s.symbols = {} ∧ s.draft = {} ∧
      parse f.bytes = if (f.major.toNat : Int) < Version.minMajor then
          .malformed (.version f.major.toNat f.minor.toNat)
        else parseBody f.bytes f.major.toNat f.minor.toNat f.pool s := by
  have whole : f.bytes =
      (Assembly.u4 0xCAFEBABE ++ indexBytes f.minor ++ indexBytes f.major) ++ (f.constants ++ f.body) :=
    List.append_assoc _ _ _
  obtain ⟨header, unmarked, front⟩ := (Reads.header f.minor.toNat_lt f.major.toNat_lt).left
    (s := { cursor := { rest := f.bytes } }) rfl whole
  obtain ⟨pooled, unmarked', front'⟩ := f.decodes.reads.left unmarked front
  refine ⟨_, ⟨unmarked', front'⟩, rfl, rfl, ?_⟩
  rw [parse, header]
  simp only [pooled]

theorem assemble_unstamped (bytes bytes' : List UInt8) {s s' : Reading} (twin : s.Twin s')
    (major minor : Nat) (refs : List MemberRef) (degraded : Bool) :
    (assemble bytes' major minor s' refs degraded).unstamped =
      (assemble bytes major minor s refs degraded).unstamped := by
  simp only [assemble, JavaClass.unstamped, twin.symbols, twin.draft]

theorem parseBody_unstamped {bytes bytes' : List UInt8} {pool : ConstantPool} {s s' : Reading}
    (walked : EndAlike [] [] ((readBody pool).run.run s) ((readBody pool).run.run s'))
    (major minor : Nat) :
    (parseBody bytes' major minor pool s').unstamped = (parseBody bytes major minor pool s).unstamped := by
  rcases run : (readBody pool).run.run s with ⟨read, t⟩
  rcases run' : (readBody pool).run.run s' with ⟨read', t'⟩
  rw [run, run'] at walked
  have ends : read' = read ∧ t.Twin t' := by
    cases walked with
    | ok twin _ _ => exact ⟨rfl, twin⟩
    | error twin => exact ⟨rfl, twin⟩
  obtain ⟨rfl, walkedTwin⟩ := ends
  obtain ⟨outcome, twin⟩ := Blind.twin pool.symbols walkedTwin
  rcases sweep : pool.symbols.run.run t with ⟨swept, u⟩
  rcases sweep' : pool.symbols.run.run t' with ⟨swept', u'⟩
  rw [sweep, sweep'] at outcome twin
  obtain rfl : swept' = swept := outcome
  have classes := assemble_unstamped bytes bytes' twin major minor
  have modules : assembleModule u' = assembleModule u := by
    rw [assembleModule, assembleModule, twin.symbols]
  simp only [parseBody, run, run', sweep, sweep', walkedTwin.draft]
  split
  · simp only [Parsed.unstamped, classes, modules]
  · split <;> simp only [Parsed.unstamped, classes, modules]

theorem parse_unstamped {f g : FileParts} (alike : f.Alike g) (fits : f.fits = true)
    (fits' : g.fits = true) : (parse g.bytes).unstamped = (parse f.bytes).unstamped := by
  obtain ⟨s, stands, symbols, draft, parsed⟩ := parse_parts f
  obtain ⟨s', stands', symbols', draft', parsed'⟩ := parse_parts g
  have twin : s.Twin s' := ⟨symbols'.trans symbols.symm, draft'.trans draft.symm⟩
  have same : g.major = f.major ∧ g.minor = f.minor ∧ g.pool = f.pool := by
    rw [alike.front]
    exact ⟨rfl, rfl, rfl⟩
  obtain ⟨major, minor, pool⟩ := same
  have walked := readBody_alike (mirrors_readStructure alike fits fits' s s' [] [] twin
    (by rwa [List.append_nil]) (by rwa [List.append_nil]))
  rw [parsed, parsed', major, minor, pool]
  split
  · rfl
  · exact parseBody_unstamped walked _ _

/-- Attributes that are not recognised, and instructions, do not interfere. Of two class files that differ in
nothing else, and in which every length and count has room, one is accepted if the other is, and so are
they degraded or rejected; the failures and the module descriptors are the same, and so are the classes but
for hash and size. -/
theorem parse_noninterference {f g : FileParts} (alike : f.Alike g) (fits : f.fits = true)
    (fits' : g.fits = true) :
    ((parse f.bytes).Accepts ↔ (parse g.bytes).Accepts) ∧
      ((parse f.bytes).Degrades ↔ (parse g.bytes).Degrades) ∧
      ((parse f.bytes).Rejects ↔ (parse g.bytes).Rejects) ∧
      (parse f.bytes).failure? = (parse g.bytes).failure? ∧
      parseModule f.bytes = parseModule g.bytes ∧
      ∀ c c', (parse f.bytes).class? = some c → (parse g.bytes).class? = some c' →
        c' = { c with hash := c'.hash, size := c'.size } := by
  have same := parse_unstamped alike fits fits'
  refine ⟨?_, ?_, ?_, ?_, ?_, ?_⟩
  · rw [← accepts_unstamped, ← same, accepts_unstamped]
  · rw [← degrades_unstamped, ← same, degrades_unstamped]
  · rw [← rejects_unstamped, ← same, rejects_unstamped]
  · rw [← failure?_unstamped, ← same, failure?_unstamped]
  · rw [parseModule_unstamped, ← same, ← parseModule_unstamped]
  · intro c c' isClass isClass'
    have classes := congrArg Parsed.class? same
    rw [class?_unstamped, class?_unstamped, isClass, isClass'] at classes
    exact JavaClass.eq_of_unstamped (Option.some.inj classes).symm

/-- A class with one method, whose code tells its lines, and with the name of its source. -/
def traced : FileParts where
  minor := 0
  major := 52
  constants := Assembly.u2 8 ++ textEntry "Lamp" ++ [7, 0, 1] ++ textEntry "light" ++ textEntry "()V" ++
    textEntry "Code" ++ textEntry "LineNumberTable" ++ textEntry "SourceFile"
  pool := ⟨#[none, some (.utf8 "Lamp"), some (.classInfo 1), some (.utf8 "light"), some (.utf8 "()V"),
    some (.utf8 "Code"), some (.utf8 "LineNumberTable"), some (.utf8 "SourceFile")]⟩
  decodes := ConstantPool.decodes_of_run (by decide +kernel)
  access := 1
  this := 2
  parent := 0
  interfaces := []
  fields := []
  methods := [⟨1, 3, 4, [.code 5 0 1 [177] [] [.plain 6 [0, 1, 0, 0, 0, 9]]]⟩]
  attributes := [.plain 7 [0, 1]]

/-- The same class with a source that says nothing, other instructions and no lines. -/
def stripped : FileParts :=
  { traced with
    methods := [⟨1, 3, 4, [.code 5 0 1 [0, 0, 177] [] []]⟩]
    attributes := [.plain 7 []] }

theorem traced_alike : traced.Alike stripped where
  front := rfl
  fields := .nil
  methods := .cons ⟨rfl, rfl, rfl, .code rfl (.left ⟨_, rfl, by decide⟩ .nil) .nil⟩ .nil
  attributes := .left ⟨_, rfl, by decide⟩ (.right ⟨_, rfl, by decide⟩ .nil)

theorem parse_noninterference_traced :
    stripped.bytes.length < traced.bytes.length ∧
      (parse traced.bytes).failure? = none ∧ (parse stripped.bytes).failure? = none := by
  have same := parse_noninterference traced_alike (by decide +kernel) (by decide +kernel)
  have sound : (parse traced.bytes).failure? = none :=
    Option.isNone_iff_eq_none.mp (by decide +kernel)
  exact ⟨by decide +kernel, sound, same.2.2.2.1.symm.trans sound⟩

end ClassFile

end ClasspathAudit
