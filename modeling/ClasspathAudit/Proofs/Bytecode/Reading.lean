import ClasspathAudit.Assembly.Pool
import ClasspathAudit.Bytecode.ClassFile
import Mathlib.Tactic

/-!
Reading what was written. `Reads act bytes value effect` says that an action, wherever the bytes stand
in front of it, takes exactly them, returns the value and leaves the effect on what has been found.
Each way of combining actions has one rule, so that the reader of a format is followed piece by piece.
-/

namespace ClasspathAudit.Bytecode

/-- What is known after finding `more` besides `s`, latest first. -/
def Symbols.gain (s more : Symbols) : Symbols where
  references := more.references ++ s.references
  annotations := more.annotations ++ s.annotations
  moduleInfo := more.moduleInfo.or s.moduleInfo
  packages := s.packages ++ more.packages

@[simp] theorem Symbols.gain_empty (s : Symbols) : s.gain {} = s := by
  cases s
  simp [Symbols.gain]

@[simp] theorem Symbols.empty_gain (s : Symbols) : ({} : Symbols).gain s = s := by
  cases s
  simp [Symbols.gain]

theorem Symbols.gain_assoc (s t u : Symbols) : (s.gain t).gain u = s.gain (t.gain u) := by
  simp [Symbols.gain, Option.or_assoc]

/-- What an action adds to the names found and does to the class under construction. -/
structure Effect where
  found : Symbols := {}
  edit : Draft → Draft := id

namespace Effect

/-- One effect after the other. -/
def andThen (first second : Effect) : Effect :=
  ⟨first.found.gain second.found, second.edit ∘ first.edit⟩

def all (effects : List Effect) : Effect := effects.foldr andThen {}

@[simp] theorem andThen_none (e : Effect) : e.andThen {} = e := by
  cases e
  simp [andThen]

@[simp] theorem none_andThen (e : Effect) : ({} : Effect).andThen e = e := by
  cases e
  simp [andThen]

theorem andThen_assoc (e f g : Effect) : (e.andThen f).andThen g = e.andThen (f.andThen g) := by
  simp [andThen, Symbols.gain_assoc, Function.comp_assoc]

/-- The effect of coming upon class names, in reading order. -/
def names (found : List String) : Effect := ⟨{ references := found.reverse }, id⟩

/-- The effect of coming upon annotation types, which are references as well. -/
def marks (found : List String) : Effect :=
  ⟨{ references := found.reverse, annotations := found.reverse }, id⟩

@[simp] theorem all_nil : all [] = {} := rfl

@[simp] theorem all_cons (e : Effect) (rest : List Effect) :
    all (e :: rest) = e.andThen (all rest) := rfl

theorem all_append (first second : List Effect) :
    all (first ++ second) = (all first).andThen (all second) := by
  induction first with
  | nil => simp
  | cons e first ih => simp [ih, andThen_assoc]

@[simp] theorem names_nil : names [] = {} := rfl

/-- The effect of filling in the class under construction. -/
def fills (edit : Draft → Draft) : Effect := ⟨{}, edit⟩

section

variable {name : String} {e f : Effect} {effects : List Effect} {found : List String}

@[simp] theorem mem_references_andThen : name ∈ (e.andThen f).found.references ↔
    name ∈ e.found.references ∨ name ∈ f.found.references := by
  simp [andThen, Symbols.gain, or_comm]

@[simp] theorem mem_annotations_andThen : name ∈ (e.andThen f).found.annotations ↔
    name ∈ e.found.annotations ∨ name ∈ f.found.annotations := by
  simp [andThen, Symbols.gain, or_comm]

@[simp] theorem mem_references_all :
    name ∈ (all effects).found.references ↔ ∃ e ∈ effects, name ∈ e.found.references := by
  induction effects with
  | nil => simp
  | cons e effects ih => simp [ih]

@[simp] theorem mem_annotations_all :
    name ∈ (all effects).found.annotations ↔ ∃ e ∈ effects, name ∈ e.found.annotations := by
  induction effects with
  | nil => simp
  | cons e effects ih => simp [ih]

@[simp] theorem mem_references_names : name ∈ (names found).found.references ↔ name ∈ found := by
  simp [names]

@[simp] theorem mem_references_marks : name ∈ (marks found).found.references ↔ name ∈ found := by
  simp [marks]

@[simp] theorem mem_annotations_marks : name ∈ (marks found).found.annotations ↔ name ∈ found := by
  simp [marks]

@[simp] theorem annotations_names : (names found).found.annotations = [] := rfl

@[simp] theorem found_fills (edit : Draft → Draft) : (fills edit).found = {} := rfl

@[simp] theorem edit_names : (names found).edit = id := rfl

@[simp] theorem edit_marks : (marks found).edit = id := rfl

@[simp] theorem edit_fills (edit : Draft → Draft) : (fills edit).edit = edit := rfl

@[simp] theorem edit_andThen : (e.andThen f).edit = f.edit ∘ e.edit := rfl

theorem edit_all_eq_id (still : ∀ e ∈ effects, e.edit = id) : (all effects).edit = id := by
  induction effects with
  | nil => rfl
  | cons e effects ih =>
    rw [all_cons, edit_andThen, still e List.mem_cons_self,
      ih fun f member => still f (List.mem_cons_of_mem e member)]
    rfl

end

end Effect

/-- The state after `count` bytes were taken and an effect was left. -/
def Reading.after (s : Reading) (count : Nat) (effect : Effect) : Reading where
  cursor := { s.cursor with rest := s.cursor.rest.drop count, offset := s.cursor.offset + count }
  symbols := s.symbols.gain effect.found
  draft := effect.edit s.draft

theorem Reading.after_after (s : Reading) (m n : Nat) (e f : Effect) :
    (s.after m e).after n f = s.after (m + n) (e.andThen f) := by
  simp [Reading.after, Effect.andThen, Symbols.gain_assoc, List.drop_drop, Nat.add_assoc]

namespace Scan

variable {α β : Type}

theorem run_bind (act : Scan α) (f : α → Scan β) (s : Reading) :
    (act >>= f).run.run s =
      match act.run.run s with
      | (.ok a, s') => (f a).run.run s'
      | (.error fault, s') => (.error fault, s') := by
  simp only [ExceptT.run_bind, StateT.run_bind]
  rcases act.run.run s with ⟨_ | _, _⟩ <;> rfl

/-- Where two actions end well, both do. -/
theorem run_bind_eq_ok {act : Scan α} {f : α → Scan β} {s s' : Reading} {b : β}
    (run : (act >>= f).run.run s = (.ok b, s')) :
    ∃ a s₁, act.run.run s = (.ok a, s₁) ∧ (f a).run.run s₁ = (.ok b, s') := by
  rw [run_bind] at run
  generalize act.run.run s = outcome at run
  obtain ⟨_ | a, s₁⟩ := outcome
  · cases run
  · exact ⟨a, s₁, rfl, run⟩

@[simp] theorem run_pure (a : α) (s : Reading) : (pure a : Scan α).run.run s = (.ok a, s) := rfl

@[simp] theorem run_throw (fault : Fault) (s : Reading) :
    (throw fault : Scan α).run.run s = (.error fault, s) := rfl

@[simp] theorem run_get (s : Reading) : (get : Scan Reading).run.run s = (.ok s, s) := rfl

@[simp] theorem run_modify (f : Reading → Reading) (s : Reading) :
    (modify f : Scan Unit).run.run s = (.ok (), f s) := rfl

@[simp] theorem run_read (f : Cursor → α × Cursor) (s : Reading) :
    (read f).run.run s = (.ok (f s.cursor).1, { s with cursor := (f s.cursor).2 }) := rfl

@[simp] theorem run_lift (x : Except Fault α) (s : Reading) :
    (liftM x : Scan α).run.run s = (x, s) := rfl

@[simp] theorem run_rewording (f : Fault → Fault) (act : Scan Unit) (s : Reading) :
    (rewording f act).run.run s = ((act.run.run s).1.mapError f, (act.run.run s).2) := rfl

/-- `act` takes exactly `bytes`, returns `value` and leaves `effect`. -/
def Reads (act : Scan α) (bytes : List UInt8) (value : α) (effect : Effect) : Prop :=
  ∀ (s : Reading) (rest : List UInt8), s.cursor.failure = none → s.cursor.rest = bytes ++ rest →
    act.run.run s = (.ok value, s.after bytes.length effect)

namespace Reads

/-- What a read leaves in front of the next one. -/
theorem left {act : Scan α} {bytes rest : List UInt8} {a : α} {e : Effect} {s : Reading}
    (reads : Reads act bytes a e) (sound : s.cursor.failure = none)
    (stands : s.cursor.rest = bytes ++ rest) :
    act.run.run s = (.ok a, s.after bytes.length e) ∧
      (s.after bytes.length e).cursor.failure = none ∧
      (s.after bytes.length e).cursor.rest = rest := by
  refine ⟨reads s rest sound stands, sound, ?_⟩
  simp [Reading.after, stands]

theorem pure (a : α) : Reads (Pure.pure a) [] a {} := by
  intro s rest sound stands
  rw [run_pure]
  simp [Reading.after]

theorem bind {act : Scan α} {f : α → Scan β} {bytes bytes' : List UInt8} {a : α} {b : β}
    {e e' : Effect} (first : Reads act bytes a e) (second : Reads (f a) bytes' b e') :
    Reads (act >>= f) (bytes ++ bytes') b (e.andThen e') := by
  intro s rest sound stands
  have stands' : s.cursor.rest = bytes ++ (bytes' ++ rest) := by
    rw [stands, List.append_assoc]
  have left : (s.after bytes.length e).cursor.rest = bytes' ++ rest := by
    simp [Reading.after, stands']
  rw [run_bind, first s _ sound stands']
  dsimp only
  rw [second (s.after bytes.length e) rest sound left, Reading.after_after, List.length_append]

/-- A first action that leaves no trace. -/
theorem bind_silent {act : Scan α} {f : α → Scan β} {bytes bytes' : List UInt8} {a : α} {b : β}
    {e : Effect} (first : Reads act bytes a {}) (second : Reads (f a) bytes' b e) :
    Reads (act >>= f) (bytes ++ bytes') b e := by
  have both := bind first second
  rwa [Effect.none_andThen] at both

/-- A first action that takes nothing and leaves no trace. -/
theorem bind_still {act : Scan α} {f : α → Scan β} {bytes : List UInt8} {a : α} {b : β}
    {e : Effect} (first : Reads act [] a {}) (second : Reads (f a) bytes b e) :
    Reads (act >>= f) bytes b e :=
  bind_silent first second

/-- A first action that takes nothing. -/
theorem bind_first {act : Scan α} {f : α → Scan β} {bytes : List UInt8} {a : α} {b : β}
    {e e' : Effect} (first : Reads act [] a e) (second : Reads (f a) bytes b e') :
    Reads (act >>= f) bytes b (e.andThen e') :=
  bind first second

/-- A first action that takes everything and a second one that does everything. -/
theorem bind_only {act : Scan α} {f : α → Scan β} {bytes : List UInt8} {a : α} {b : β}
    {e : Effect} (first : Reads act bytes a {}) (second : Reads (f a) [] b e) :
    Reads (act >>= f) bytes b e := by
  have both := bind first second
  rwa [Effect.none_andThen, List.append_nil] at both

/-- A last action that takes nothing and leaves no trace. -/
theorem bind_last {act : Scan α} {f : α → Scan β} {bytes : List UInt8} {a : α} {b : β}
    {e : Effect} (first : Reads act bytes a e) (second : Reads (f a) [] b {}) :
    Reads (act >>= f) bytes b e := by
  have both := bind first second
  rwa [Effect.andThen_none, List.append_nil] at both

theorem of_eq {act : Scan α} {bytes bytes' : List UInt8} {a : α} {e e' : Effect}
    (reads : Reads act bytes a e) (sameBytes : bytes = bytes') (sameEffect : e = e') :
    Reads act bytes' a e' := by
  rw [← sameBytes, ← sameEffect]
  exact reads

/-- An action that looks at how many bytes are left. -/
theorem get_bind {f : Reading → Scan α} {bytes : List UInt8} {a : α} {e : Effect}
    (reads : ∀ s : Reading, bytes.length ≤ s.cursor.rest.length → Reads (f s) bytes a e) :
    Reads (get >>= f) bytes a e := by
  intro s rest sound stands
  have fits : bytes.length ≤ s.cursor.rest.length := by simp [stands]
  exact reads s fits s rest sound stands

theorem checkpoint : Reads Scan.checkpoint [] () {} := by
  intro s rest sound stands
  rw [Scan.checkpoint, run_bind, run_get]
  simp only [sound, run_pure]
  simp [Reading.after]

theorem lift {x : Except Fault α} {a : α} (answer : x = .ok a) :
    Reads (liftM x) [] a {} := by
  intro s rest sound stands
  simp [answer, Reading.after]

theorem rewording {act : Scan Unit} {bytes : List UInt8} {e : Effect} (f : Fault → Fault)
    (reads : Reads act bytes () e) : Reads (Scan.rewording f act) bytes () e := by
  intro s rest sound stands
  rw [run_rewording, reads s rest sound stands]
  rfl

/-- A read of the cursor that takes what stands in front. -/
theorem read {f : Cursor → α × Cursor} {bytes : List UInt8} {a : α}
    (takes : ∀ (c : Cursor) (rest : List UInt8), c.failure = none → c.rest = bytes ++ rest →
      f c = (a, { c with rest, offset := c.offset + bytes.length })) :
    Reads (Scan.read f) bytes a {} := by
  intro s rest sound stands
  simp [takes s.cursor rest sound stands, Reading.after, stands]

theorem bytes (content : List UInt8) : Reads (Scan.bytes content.length) content content {} := by
  apply read
  intro c rest sound stands
  simp [Cursor.bytes, sound, stands]

theorem skip {count : Nat} {content : List UInt8} (size : content.length = count) :
    Reads (Scan.skip count) content () {} := by
  apply read
  intro c rest sound stands
  simp [Cursor.skip, Cursor.bytes, sound, stands, ← size]

theorem unsigned (content : List UInt8) {count : Nat} (size : content.length = count) :
    Reads (Scan.read (·.unsigned count)) content (Cursor.number content) {} := by
  apply read
  intro c rest sound stands
  simp [Cursor.unsigned, Cursor.bytes, sound, stands, ← size]

theorem u1 (b : UInt8) : Reads Scan.u1 [b] b {} := by
  have reads := bind_last (f := fun n => Pure.pure (UInt8.ofNat n))
    (unsigned [b] rfl) (Reads.pure _)
  have value : UInt8.ofNat (Cursor.number [b]) = b := by simp [Cursor.number]
  rw [value] at reads
  exact reads

theorem u2 {n : Nat} (small : n < 65536) : Reads Scan.u2 (Assembly.u2 n) n {} := by
  have value : Cursor.number (Assembly.u2 n) = n := by
    simp [Cursor.number, Assembly.u2]
    omega
  have reads := unsigned (Assembly.u2 n) rfl
  rw [value] at reads
  exact reads

theorem u4 {n : Nat} (small : n < 4294967296) : Reads Scan.u4 (Assembly.u4 n) n {} := by
  have value : Cursor.number (Assembly.u4 n) = n := by
    simp [Cursor.number, Assembly.u4, Assembly.u2]
    omega
  have reads := unsigned (Assembly.u4 n) rfl
  rw [value] at reads
  exact reads

/-- An action repeated over the parts of which each is its own reading. -/
theorem times {act : Scan Unit} {parts : List (List UInt8)} {effects : List Effect}
    (each : List.Forall₂ (fun part e => Reads act part () e) parts effects) :
    Reads (Scan.times parts.length act) parts.flatten () (Effect.all effects) := by
  induction each with
  | nil => exact Reads.pure ()
  | cons first _ ih => exact bind first ih

/-- An action repeated over the written items of a list. -/
theorem times_items {act : Scan Unit} {items : List β} {parts : List (List UInt8)}
    {R : β → List UInt8 → Prop} {effect : β → Effect} (written : List.Forall₂ R items parts)
    (each : ∀ x ∈ items, ∀ part, R x part → Reads act part () (effect x)) :
    Reads (Scan.times items.length act) parts.flatten () (Effect.all (items.map effect)) := by
  induction written with
  | nil => exact Reads.pure ()
  | cons first _ ih =>
    exact bind (each _ (by simp) _ first) (ih fun x member => each x (List.mem_cons_of_mem _ member))

/-- An action on a stretch of its own sees nothing of what follows the stretch, and what it leaves of the
stretch is passed over. -/
theorem within_front {act : Scan Unit} {content behind stretch : List UInt8} {e : Effect}
    (whole : stretch = content ++ behind) (reads : Reads act content () e) :
    Reads (Scan.within stretch.length act) stretch () e := by
  intro s rest sound stands
  let outer : Cursor :=
    { rest, offset := s.cursor.offset + stretch.length, failure := s.cursor.failure }
  have split : s.cursor.sub stretch.length = ({ rest := stretch }, outer) := by
    simp [Cursor.sub, Cursor.bytes, sound, stands, outer]
  have inner := reads { s with cursor := { rest := stretch } } behind rfl whole
  have noFailure : outer.failure = none := sound
  simp only [Scan.within, Scan.checkpoint, run_bind, run_read, run_get, split, noFailure, run_pure,
    run_modify, inner]
  simp [Reading.after, stands, outer]

/-- An action that takes all of the stretch it is given. -/
theorem within {act : Scan Unit} {content : List UInt8} {e : Effect}
    (reads : Reads act content () e) : Reads (Scan.within content.length act) content () e :=
  within_front (List.append_nil content).symm reads

theorem addReferences (found : List String) :
    Reads (Scan.addReferences found) [] () (Effect.names found) := by
  intro s rest sound stands
  simp [Scan.addReferences, Reading.after, Symbols.gain, Effect.names]

theorem draft (edit : Draft → Draft) :
    Reads (Bytecode.draft edit) [] () (Effect.fills edit) := by
  intro s rest sound stands
  simp [Bytecode.draft, Reading.after, Effect.fills]

theorem addAnnotations (found : List String) :
    Reads (Scan.addAnnotations found) [] () (Effect.marks found) := by
  intro s rest sound stands
  simp only [Scan.addAnnotations, Scan.addReferences, run_bind, run_modify]
  simp [Reading.after, Symbols.gain, Effect.marks]

theorem descriptor {add : List String → Scan Unit} {value : String} {e : Effect}
    (accepted : (Descriptor.scan value).2 = none)
    (adds : Reads (add (Descriptor.scan value).1) [] () e) :
    Reads (Scan.descriptor add value) [] () e := by
  simp only [Scan.descriptor, accepted]
  exact bind_last adds (Reads.pure ())

theorem signature {value : String} (accepted : (Signature.scan value).2 = none) :
    Reads (Scan.signature value) [] () (Effect.names (Signature.scan value).1) := by
  simp only [Scan.signature, accepted]
  exact bind_last (addReferences _) (Reads.pure ())

theorem className {name : String} (noArray : Text.hasStart "[" name = false)
    (nonempty : name ≠ "") :
    Reads (Scan.className name) [] () (Effect.names [ClassName.external name]) := by
  have filled : name.isEmpty = false := by simp [nonempty]
  simp only [Scan.className, noArray, filled]
  exact addReferences _

theorem header {minor major : Nat} (smallMinor : minor < 65536) (small : major < 65536) :
    Reads ClassFile.readHeader (Assembly.u4 0xCAFEBABE ++ Assembly.u2 minor ++ Assembly.u2 major)
      (.versioned major minor) {} := by
  rw [List.append_assoc]
  refine bind_silent (u4 (by decide)) ?_
  refine bind_silent (u2 smallMinor) ?_
  refine bind_last (u2 small) ?_
  exact bind_still checkpoint (Reads.pure _)

end Reads

end Scan

end ClasspathAudit.Bytecode
