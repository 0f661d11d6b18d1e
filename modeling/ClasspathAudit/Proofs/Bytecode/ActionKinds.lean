import ClasspathAudit.Proofs.Bytecode.Reading

/-!
Two kinds of actions. The header of a class file and its constant pool are read by actions that do nothing
but take bytes, pass checkpoints and fail: `Plain act`. The names that a descriptor, a signature or a whole
pool mentions are added by actions that do not touch the bytes at all: `Naming act`. A property of actions
that is kept when one follows another holds of all these readers, by induction on their kind, once it holds
of the few steps that they are made of.
-/

namespace ClasspathAudit.Bytecode

namespace Scan

/-- Made of reads, checkpoints and failures. -/
class inductive Plain : {α : Type} → Scan α → Prop where
  | pure {α : Type} (a : α) : Plain (Pure.pure a : Scan α)
  | throw {α : Type} (fault : Fault) : Plain (throw fault : Scan α)
  | u1 : Plain u1
  | u2 : Plain u2
  | u4 : Plain u4
  | bytes (count : Nat) : Plain (bytes count)
  | checkpoint : Plain checkpoint
  | bind {α β : Type} {act : Scan α} {f : α → Scan β} (first : Plain act)
      (second : ∀ a, Plain (f a)) : Plain (act >>= f)

attribute [instance] Plain.pure Plain.throw Plain.u1 Plain.u2 Plain.u4 Plain.bytes Plain.checkpoint

/-- Made of answers, failures and names to add. -/
class inductive Naming : {α : Type} → Scan α → Prop where
  | pure {α : Type} (a : α) : Naming (Pure.pure a : Scan α)
  | throw {α : Type} (fault : Fault) : Naming (throw fault : Scan α)
  | lift {α : Type} (x : Except Fault α) : Naming (liftM x : Scan α)
  | addReferences (names : List String) : Naming (addReferences names)
  | addAnnotations (names : List String) : Naming (addAnnotations names)
  | rewording (f : Fault → Fault) {act : Scan Unit} (kept : Naming act) : Naming (rewording f act)
  | bind {α β : Type} {act : Scan α} {f : α → Scan β} (first : Naming act)
      (second : ∀ a, Naming (f a)) : Naming (act >>= f)

attribute [instance] Naming.pure Naming.throw Naming.lift Naming.addReferences Naming.addAnnotations

variable {α β : Type}

namespace Plain

instance chain (act : Scan α) (f : α → Scan β) [Plain act] [∀ a, Plain (f a)] : Plain (act >>= f) :=
  bind inferInstance fun _ => inferInstance

instance map (f : α → β) (act : Scan α) [Plain act] : Plain (f <$> act) := by
  rw [map_eq_pure_bind]
  infer_instance

end Plain

namespace Naming

instance chain (act : Scan α) (f : α → Scan β) [Naming act] [∀ a, Naming (f a)] :
    Naming (act >>= f) :=
  bind inferInstance fun _ => inferInstance

instance descriptor (add : List String → Scan Unit) [∀ names, Naming (add names)] (value : String) :
    Naming (Scan.descriptor add value) := by
  unfold Scan.descriptor
  split
  split <;> infer_instance

instance signature (value : String) : Naming (Scan.signature value) := by
  unfold Scan.signature
  split
  split <;> infer_instance

instance className (internal : String) : Naming (Scan.className internal) := by
  unfold Scan.className
  split
  · infer_instance
  · split <;> infer_instance

end Naming

end Scan

open Scan

instance Attribute.naming_classRef (pool : ConstantPool) (index : Nat) :
    Naming (classRef pool index) := by
  unfold classRef
  infer_instance

namespace Constant

instance plain_readText (index : Nat) : Plain (readText index) := by
  have each : ∀ raw : List UInt8, Plain (match Text.ModifiedUtf8.decode raw with
      | .ok value => return .utf8 value
      | .error fault => throw (.inConstant index (.text fault)) : Scan Constant) := by
    intro raw
    split <;> infer_instance
  unfold readText
  infer_instance

instance plain_readPair (make : Nat → Nat → Constant) (first second : Scan Nat) [Plain first]
    [Plain second] : Plain (readPair make first second) := by
  unfold readPair
  infer_instance

instance plain_read (index : Nat) : Plain (read index) := by
  unfold read
  refine .bind inferInstance fun tag => ?_
  split <;> infer_instance

end Constant

namespace ConstantPool

instance plain_readSlots (count index : Nat) : Plain (readSlots count index) := by
  induction count using Nat.strong_induction_on generalizing index with
  | _ count ih =>
    cases count with
    | zero => exact .pure []
    | succ count =>
      have next : Plain (readSlots count (index + 1)) := ih count (by omega) _
      rw [readSlots.eq_def]
      dsimp only
      refine .bind inferInstance fun entry => ?_
      split
      · cases count with
        | zero => infer_instance
        | succ count =>
          -- the slot behind a wide entry is passed over
          have afterWide : Plain (readSlots count (index + 2)) := ih count (by omega) _
          infer_instance
      · infer_instance

instance plain_read : Plain read := by
  unfold read
  infer_instance

variable (pool : ConstantPool)

instance naming_symbolsOf (entry : Constant) : Naming (pool.symbolsOf entry) := by
  unfold symbolsOf
  split <;> infer_instance

instance naming_symbolsFrom (index : Nat) (slots : List (Option Constant)) :
    Naming (pool.symbolsFrom index slots) := by
  induction slots generalizing index with
  | nil => exact .pure ()
  | cons slot slots ih =>
    have rest := ih (index + 1)
    cases slot with
    | none => exact rest
    | some entry => exact .bind (.rewording _ (naming_symbolsOf pool entry)) fun _ => rest

instance naming_symbols : Naming pool.symbols := by
  unfold symbols
  infer_instance

end ConstantPool

instance plain_readHeader : Plain ClassFile.readHeader := by
  unfold ClassFile.readHeader
  refine .bind inferInstance fun magic => ?_
  split <;> infer_instance

end ClasspathAudit.Bytecode
