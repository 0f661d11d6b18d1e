import ClasspathAudit.Proofs.Bytecode.ActionKinds

/-!
How a reading moves on. Nearly all that reading does is to move the cursor and to add names, so a relation
of an earlier reading to a later one that these steps keep is kept by every action made of them, however
the action ends. `Follows R act` says so of one action, and instances carry it through the attributes up
to the two that a relation may tell apart: code, for what is nested in it, and the module descriptor.

Growing is such a relation: reading only adds names. `Grows act` says that an action keeps the names found
before it, keeps the class under construction as it is, and finds no annotation type that it does not count
as a reference; a module descriptor changes none of that.
-/

namespace ClasspathAudit.Bytecode

/-- A relation of readings that is kept when the cursor moves and when names come in. -/
structure Motion where
  Leads : Reading → Reading → Prop
  refl (s : Reading) : Leads s s
  trans {s s' s'' : Reading} : Leads s s' → Leads s' s'' → Leads s s''
  moved (s : Reading) (cursor : Cursor) : Leads s { s with cursor }
  referenced (s : Reading) (names : List String) :
    Leads s { s with symbols := { s.symbols with references := names ++ s.symbols.references } }
  /-- Annotation types are references as well. -/
  annotated (s : Reading) (names : List String) :
    Leads s { s with symbols := { s.symbols with
      references := names ++ s.symbols.references
      annotations := names ++ s.symbols.annotations } }
  packaged (s : Reading) (packages : List String) :
    Leads s { s with symbols := { s.symbols with packages } }

namespace Scan

variable {α β : Type} {R : Motion}

/-- However it ends, an action moves a reading along `R`. -/
class Follows (R : Motion) (act : Scan α) : Prop where
  along : ∀ s, R.Leads s (act.run.run s).2

namespace Follows

theorem after (act : Scan α) [Follows R act] (s : Reading) : R.Leads s (act.run.run s).2 := along s

theorem of_run {act : Scan α} [Follows R act] {s s' : Reading} {outcome : Except Fault α}
    (run : act.run.run s = (outcome, s')) : R.Leads s s' := by
  have moved : R.Leads s (act.run.run s).2 := after act s
  rwa [run] at moved

instance bind (act : Scan α) (f : α → Scan β) [Follows R act] [∀ a, Follows R (f a)] :
    Follows R (act >>= f) := by
  constructor
  intro s
  rw [run_bind]
  cases run : act.run.run s with
  | mk outcome s' =>
    have first : R.Leads s s' := of_run run
    cases outcome with
    | error fault => exact first
    | ok a => exact R.trans first (after (f a) s')

instance ite {p : Prop} [Decidable p] (yes no : Scan α) [Follows R yes] [Follows R no] :
    Follows R (if p then yes else no) := by
  split <;> assumption

instance rewording (f : Fault → Fault) (act : Scan Unit) [Follows R act] :
    Follows R (Scan.rewording f act) :=
  ⟨fun s => after act s⟩

instance pure (a : α) : Follows R (Pure.pure a : Scan α) := ⟨R.refl⟩

instance throw (fault : Fault) : Follows R (throw fault : Scan α) := ⟨R.refl⟩

instance get : Follows R (get : Scan Reading) := ⟨R.refl⟩

instance lift (x : Except Fault α) : Follows R (liftM x : Scan α) := ⟨R.refl⟩

instance read (f : Cursor → α × Cursor) : Follows R (Scan.read f) :=
  ⟨fun s => R.moved s (f s.cursor).2⟩

instance u1 : Follows R Scan.u1 := by
  unfold Scan.u1
  infer_instance

instance u2 : Follows R Scan.u2 := read _

instance u4 : Follows R Scan.u4 := read _

instance bytes (count : Nat) : Follows R (Scan.bytes count) := read _

instance skip (count : Nat) : Follows R (Scan.skip count) := read _

instance checkpoint : Follows R Scan.checkpoint := by
  unfold Scan.checkpoint
  have each : ∀ s : Reading, Follows R (match s.cursor.failure with
      | some t => MonadExcept.throw (Fault.truncated t)
      | none => Pure.pure () : Scan Unit) := by
    intro s
    split <;> infer_instance
  infer_instance

instance (priority := low) of_plain (act : Scan α) [plain : Plain act] : Follows R act := by
  induction plain with
  | bind _ _ first second => exact @bind _ _ _ _ _ first second
  | _ => infer_instance

instance times (count : Nat) (act : Scan Unit) [Follows R act] : Follows R (Scan.times count act) := by
  induction count with
  | zero => exact pure ()
  | succ count ih =>
    unfold Scan.times
    infer_instance

instance collect (count : Nat) (act : Scan α) [Follows R act] : Follows R (Scan.collect count act) := by
  induction count with
  | zero => exact pure []
  | succ count ih =>
    unfold Scan.collect
    infer_instance

instance within (count : Nat) (act : Scan Unit) [Follows R act] : Follows R (Scan.within count act) := by
  have moved : ∀ cursor : Cursor, Follows R (modify fun s => { s with cursor } : Scan Unit) :=
    fun cursor => ⟨fun s => R.moved s cursor⟩
  unfold Scan.within
  infer_instance

instance addReferences (names : List String) : Follows R (Scan.addReferences names) :=
  ⟨fun s => R.referenced s names.reverse⟩

instance addAnnotations (names : List String) : Follows R (Scan.addAnnotations names) :=
  ⟨fun s => R.annotated s names.reverse⟩

instance (priority := low) of_naming (act : Scan α) [naming : Naming act] : Follows R act := by
  induction naming with
  | rewording f _ kept => exact @rewording _ f _ kept
  | bind _ _ first second => exact @bind _ _ _ _ _ first second
  | _ => infer_instance

end Follows

end Scan

namespace Attribute

open Scan

variable {R : Motion} (pool : ConstantPool)

instance follows_annotationWith (value : Scan Unit) [Follows R value] :
    Follows R (annotationWith pool value) := by
  unfold annotationWith
  infer_instance

instance follows_elementValueUpTo (fuel : Nat) : Follows R (elementValueUpTo pool fuel) := by
  induction fuel with
  | zero =>
    unfold elementValueUpTo
    infer_instance
  | succ fuel ih =>
    have each : ∀ tag : UInt8, Follows R (match Char.ofNat tag.toNat with
        | 'B' | 'C' | 'D' | 'F' | 'I' | 'J' | 'S' | 'Z' | 's' => do
          skip 2
          checkpoint
        | 'e' => do
          let type ← u2
          let name ← pool.utf8 type
          skip 2
          descriptor addReferences name
        | 'c' => do
          let type ← u2
          descriptor addReferences (← pool.utf8 type)
        | '@' => annotationWith pool (elementValueUpTo pool fuel)
        | '[' => do
          let count ← u2
          times count (elementValueUpTo pool fuel)
          checkpoint
        | _ => throw (.elementTag tag)) := by
      intro tag
      split <;> infer_instance
    unfold elementValueUpTo
    infer_instance

instance follows_elementValue : Follows R (elementValue pool) := by
  unfold elementValue
  infer_instance

instance follows_annotations : Follows R (annotations pool) := by
  unfold annotations
  infer_instance

instance follows_skipTarget (target : UInt8) : Follows R (skipTarget target) := by
  unfold skipTarget
  infer_instance

instance follows_annotatedType : Follows R (annotatedType pool) := by
  unfold annotatedType
  infer_instance

instance follows_packageList : Follows R (packageList pool) := by
  have listed : ∀ name : String, Follows R (modify fun s => { s with symbols :=
      { s.symbols with packages := s.symbols.packages ++ [ClassName.external name] } } : Scan Unit) :=
    fun name => ⟨fun s => R.packaged s _⟩
  unfold packageList
  infer_instance

instance follows_moduleRequires : Follows R (moduleRequires pool) := by
  unfold moduleRequires
  infer_instance

instance follows_moduleExports : Follows R (moduleExports pool) := by
  have targets : ∀ count, Follows R (collect count do
      let index ← u2
      liftM (pool.moduleOrPackage index)) := fun _ => inferInstance
  unfold moduleExports
  infer_instance

instance follows_moduleUses : Follows R (moduleUses pool) := by
  unfold moduleUses
  dsimp only
  infer_instance

instance follows_moduleProvides : Follows R (moduleProvides pool) := by
  have implementations : ∀ count, Follows R (collect count do
      let index ← u2
      return ClassName.external (← pool.className index)) := fun _ => inferInstance
  unfold moduleProvides
  dsimp only
  infer_instance

instance follows_moduleVersion : Follows R (moduleVersion pool) := by
  unfold moduleVersion
  infer_instance

instance follows_code (nested : Scan Unit) [Follows R nested] : Follows R (code pool nested) := by
  have handlers : ∀ count, Follows R (times count do
      skip 6
      let caught ← u2
      if caught ≠ 0 then classRef pool caught) := fun _ => inferInstance
  unfold code
  infer_instance

/-- What a body does beyond moving and adding names is done in code or for a module. -/
theorem follows_body {nested : Scan Unit} {name : String} (inCode : name = "Code" → Follows R nested)
    (forModule : name = "Module" → Follows R (moduleInfo pool)) :
    Follows R (body pool nested name) := by
  unfold body
  split
  case h_2 => unfold exceptions; infer_instance
  case h_3 => unfold innerClasses; infer_instance
  case h_4 =>
    have := inCode rfl
    infer_instance
  case h_5 => unfold localVariables; infer_instance
  case h_6 => unfold localVariables; infer_instance
  case h_9 => unfold parameterAnnotations; infer_instance
  case h_10 => unfold parameterAnnotations; infer_instance
  case h_11 => unfold typeAnnotations; infer_instance
  case h_12 => unfold typeAnnotations; infer_instance
  case h_14 => exact forModule rfl
  all_goals infer_instance

section

variable [Follows R (moduleInfo pool)]

instance follows_entry (nested : Scan Unit) [Follows R nested] : Follows R (entry pool nested) := by
  have bodies : ∀ name, Follows R (body pool nested name) :=
    fun name => follows_body pool (fun _ => inferInstance) fun _ => inferInstance
  have each : ∀ nameIndex length : Nat, Follows R (match pool.utf8 nameIndex with
      | .error cause => throw (.inAttributeName cause)
      | .ok name => within length (rewording (.inAttribute name) (body pool nested name))) := by
    intro nameIndex length
    split <;> infer_instance
  unfold entry
  infer_instance

instance follows_tableUpTo (fuel : Nat) : Follows R (tableUpTo pool fuel) := by
  induction fuel with
  | zero =>
    unfold tableUpTo
    infer_instance
  | succ fuel ih =>
    unfold tableUpTo
    infer_instance

instance follows_table : Follows R (table pool) := by
  unfold table
  infer_instance

end

end Attribute

instance follows_readMember {R : Motion} (pool : ConstantPool)
    [Scan.Follows R (Attribute.moduleInfo pool)] : Scan.Follows R (readMember pool) := by
  unfold readMember
  infer_instance

/-- What may happen to a reading on the way: names come in, none go. -/
structure Grown (s s' : Reading) : Prop where
  draft : s'.draft = s.draft
  references : s.symbols.references ⊆ s'.symbols.references
  annotations : s.symbols.annotations ⊆ s.symbols.references →
    s'.symbols.annotations ⊆ s'.symbols.references

namespace Grown

theorem refl (s : Reading) : Grown s s := ⟨rfl, List.Subset.refl _, id⟩

theorem trans {s s' s'' : Reading} (first : Grown s s') (second : Grown s' s'') : Grown s s'' where
  draft := second.draft.trans first.draft
  references := List.Subset.trans first.references second.references
  annotations counted := second.annotations (first.annotations counted)

/-- Only the cursor has moved. -/
theorem of_same {s s' : Reading} (symbols : s'.symbols = s.symbols) (draft : s'.draft = s.draft) :
    Grown s s' := by
  refine ⟨draft, ?_, ?_⟩
  · rw [symbols]
    exact List.Subset.refl _
  · rw [symbols]
    exact id

end Grown

/-- Growing is a way of moving on. -/
def growing : Motion where
  Leads := Grown
  refl := Grown.refl
  trans := Grown.trans
  moved _ _ := Grown.of_same rfl rfl
  referenced _ _ :=
    ⟨rfl, List.subset_append_right _ _, fun counted => List.subset_append_of_subset_right _ counted⟩
  annotated _ _ :=
    ⟨rfl, List.subset_append_right _ _, fun counted => List.append_subset.mpr
      ⟨List.subset_append_left _ _, List.subset_append_of_subset_right _ counted⟩⟩
  packaged _ _ := ⟨rfl, List.Subset.refl _, id⟩

namespace Scan

variable {α : Type}

class Grows (act : Scan α) : Prop where
  grown : ∀ s, Grown s (act.run.run s).2

namespace Grows

instance of_follows (act : Scan α) [Follows growing act] : Grows act :=
  ⟨Follows.after (R := growing) act⟩

theorem of_run {act : Scan α} [Grows act] {s s' : Reading} {outcome : Except Fault α}
    (run : act.run.run s = (outcome, s')) : Grown s s' := by
  have grown : Grown s (act.run.run s).2 := Grows.grown s
  rwa [run] at grown

end Grows

end Scan

instance Attribute.grows_moduleInfo (pool : ConstantPool) :
    Scan.Follows growing (moduleInfo pool) := by
  have kept : ∀ found : ModuleDescriptor, Scan.Follows growing (modify fun s => { s with symbols :=
      { s.symbols with moduleInfo := some found } } : Scan Unit) :=
    fun found => ⟨fun s => ⟨rfl, List.Subset.refl _, id⟩⟩
  unfold moduleInfo
  dsimp only
  infer_instance

end ClasspathAudit.Bytecode
