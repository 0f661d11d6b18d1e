import ClasspathAudit.Proofs.Bytecode.Layout

/-!
Two runs side by side. Twin readings have found the same, whatever bytes they stand before. `Mirrors` says of
two actions that from twin readings, each before bytes of its own, they end alike: with the same fault and
twin readings, or with the same value, twin readings and each behind its bytes. What is found does therefore
not depend on where the bytes differ. The rules take the actions apart step by step; bytes that leave no trace
may be passed over on either side alone.
-/

namespace ClasspathAudit.Bytecode

/-- The same has been found in both readings. -/
structure Reading.Twin (s s' : Reading) : Prop where
  symbols : s'.symbols = s.symbols
  draft : s'.draft = s.draft

namespace Reading.Twin

variable {s s' s'' : Reading}

theorem symm (twin : s.Twin s') : s'.Twin s := ⟨twin.symbols.symm, twin.draft.symm⟩

theorem eq_moved (twin : s.Twin s') : s' = { s with cursor := s'.cursor } := by
  obtain ⟨symbols, draft⟩ := twin
  cases s'
  cases symbols
  cases draft
  rfl

theorem moved (s : Reading) (cursor : Cursor) : s.Twin { s with cursor } := ⟨rfl, rfl⟩

end Reading.Twin

/-- No read has failed, and these are the bytes in front. -/
structure Reading.Stands (s : Reading) (bytes : List UInt8) : Prop where
  unmarked : s.cursor.failure = none
  front : s.cursor.rest = bytes

namespace Scan

variable {α β : Type}

/-- Two runs that end alike, the one before `rest` and the other before `rest'` if they end well. -/
inductive EndAlike (rest rest' : List UInt8) : Except Fault α × Reading → Except Fault α × Reading → Prop
  | ok {a : α} {s s' : Reading} (twin : s.Twin s') (stands : s.Stands rest) (stands' : s'.Stands rest') :
    EndAlike rest rest' (.ok a, s) (.ok a, s')
  | error {fault : Fault} {s s' : Reading} (twin : s.Twin s') :
    EndAlike rest rest' (.error fault, s) (.error fault, s')

theorem EndAlike.symm {rest rest' : List UInt8} {end_ end' : Except Fault α × Reading}
    (alike : EndAlike rest rest' end_ end') : EndAlike rest' rest end' end_ := by
  cases alike with
  | ok twin stands stands' => exact .ok twin.symm stands' stands
  | error twin => exact .error twin.symm

/-- From twin readings, `act` before `bytes` and `act'` before `bytes'` end alike. -/
def Mirrors (act : Scan α) (bytes : List UInt8) (act' : Scan α) (bytes' : List UInt8) : Prop :=
  ∀ s s' rest rest', s.Twin s' → s.Stands (bytes ++ rest) → s'.Stands (bytes' ++ rest') →
    EndAlike rest rest' (act.run.run s) (act'.run.run s')

theorem Blind.twin (act : Scan α) [Blind act] {s s' : Reading} (twin : s.Twin s') :
    (act.run.run s').1 = (act.run.run s).1 ∧ (act.run.run s).2.Twin (act.run.run s').2 := by
  rw [twin.eq_moved, blind]
  exact ⟨rfl, .moved _ _⟩

namespace Mirrors

variable {act act' : Scan α} {bytes bytes' more more' : List UInt8}

theorem symm (mirrors : Mirrors act bytes act' bytes') : Mirrors act' bytes' act bytes :=
  fun s s' rest rest' twin stands stands' => (mirrors s' s rest' rest twin.symm stands' stands).symm

theorem congr {other other' : Scan α} (mirrors : Mirrors act bytes act' bytes')
    (same : ∀ s, other.run.run s = act.run.run s) (same' : ∀ s, other'.run.run s = act'.run.run s) :
    Mirrors other bytes other' bytes' := by
  intro s s' rest rest' twin stands stands'
  rw [same, same']
  exact mirrors s s' rest rest' twin stands stands'

theorem bind {f f' : α → Scan β} (first : Mirrors act bytes act' bytes')
    (second : ∀ a, Mirrors (f a) more (f' a) more') :
    Mirrors (act >>= f) (bytes ++ more) (act' >>= f') (bytes' ++ more') := by
  intro s s' rest rest' twin stands stands'
  rw [List.append_assoc] at stands stands'
  have ends := first s s' _ _ twin stands stands'
  rw [run_bind, run_bind]
  generalize act.run.run s = end_, act'.run.run s' = end' at ends ⊢
  cases ends with
  | ok twin stands stands' => exact second _ _ _ rest rest' twin stands stands'
  | error twin => exact .error twin

/-- An action on one side that takes its bytes and leaves no trace. -/
theorem left {a : α} {f : α → Scan β} {other : Scan β} (first : Reads act bytes a {})
    (second : Mirrors (f a) more other more') : Mirrors (act >>= f) (bytes ++ more) other more' := by
  intro s s' rest rest' twin stands stands'
  have front : s.cursor.rest = bytes ++ (more ++ rest) := by rw [stands.front, List.append_assoc]
  obtain ⟨run, unmarked, behind⟩ := first.left stands.unmarked front
  rw [run_bind, run]
  refine second _ s' rest rest' ⟨?_, twin.draft⟩ ⟨unmarked, behind⟩ stands'
  rw [twin.symbols, Reading.after, Symbols.gain_empty]

theorem right {a : α} {f : α → Scan β} {other : Scan β} (first : Reads act bytes a {})
    (second : Mirrors other more' (f a) more) : Mirrors other more' (act >>= f) (bytes ++ more) :=
  (left first second.symm).symm

/-- Actions on both sides that take their bytes and leave no trace, whatever they return. -/
theorem both {a a' : α} {f f' : α → Scan β} (first : Reads act bytes a {})
    (first' : Reads act' bytes' a' {}) (second : Mirrors (f a) more (f' a') more') :
    Mirrors (act >>= f) (bytes ++ more) (act' >>= f') (bytes' ++ more') :=
  left first (right first' second)

theorem of_reads {a : α} (reads : Reads act bytes a {}) (reads' : Reads act' bytes' a {}) :
    Mirrors act bytes act' bytes' := by
  intro s s' rest rest' twin stands stands'
  obtain ⟨run, unmarked, behind⟩ := reads.left stands.unmarked stands.front
  obtain ⟨run', unmarked', behind'⟩ := reads'.left stands'.unmarked stands'.front
  rw [run, run']
  refine .ok ⟨?_, twin.draft⟩ ⟨unmarked, behind⟩ ⟨unmarked', behind'⟩
  rw [Reading.after, Reading.after, Symbols.gain_empty, Symbols.gain_empty, twin.symbols]

theorem of_blind (act : Scan α) [Blind act] : Mirrors act [] act [] := by
  intro s s' rest rest' twin stands stands'
  obtain ⟨outcome, twin⟩ := Blind.twin act twin
  have stays := Blind.cursor_eq act s
  have stays' := Blind.cursor_eq act s'
  generalize act.run.run s = end_, act.run.run s' = end' at outcome twin stays stays' ⊢
  obtain ⟨result, s₁⟩ := end_
  obtain ⟨_, s₁'⟩ := end'
  cases outcome
  cases result with
  | error fault => exact .error twin
  | ok a =>
    refine .ok twin ⟨?_, ?_⟩ ⟨?_, ?_⟩
    · rw [stays, stands.unmarked]
    · rw [stays, stands.front, List.nil_append]
    · rw [stays', stands'.unmarked]
    · rw [stays', stands'.front, List.nil_append]

theorem throw (fault : Fault) (bytes bytes' : List UInt8) :
    Mirrors (MonadExcept.throw fault : Scan α) bytes (MonadExcept.throw fault) bytes' :=
  fun _ _ _ _ twin _ _ => .error twin

/-- A checkpoint in front of others is passed on both sides. -/
theorem checkpoint {f f' : Unit → Scan β} (second : Mirrors (f ()) more (f' ()) more') :
    Mirrors (Scan.checkpoint >>= f) more (Scan.checkpoint >>= f') more' :=
  both .checkpoint .checkpoint second

/-- An action that does not look at the bytes, in front of others. -/
theorem still [Blind act] {f f' : α → Scan β} (second : ∀ a, Mirrors (f a) more (f' a) more') :
    Mirrors (act >>= f) more (act >>= f') more' :=
  bind (of_blind act) second

/-- An action that does not look at the bytes, behind others. -/
theorem thenStill {f : α → Scan β} [∀ a, Blind (f a)] (first : Mirrors act bytes act' bytes') :
    Mirrors (act >>= f) bytes (act' >>= f) bytes' := by
  have both := bind first fun a => of_blind (f a)
  rwa [List.append_nil, List.append_nil] at both

theorem rewording {act act' : Scan Unit} (f : Fault → Fault) (mirrors : Mirrors act bytes act' bytes') :
    Mirrors (Scan.rewording f act) bytes (Scan.rewording f act') bytes' := by
  intro s s' rest rest' twin stands stands'
  have ends := mirrors s s' rest rest' twin stands stands'
  rw [run_rewording, run_rewording]
  generalize act.run.run s = end_, act'.run.run s' = end' at ends ⊢
  cases ends with
  | ok twin stands stands' => exact .ok twin stands stands'
  | error twin => exact .error twin

/-- What an action on a stretch of its own does, where the stretch lies in front. -/
theorem run_within_of_stands (act : Scan Unit) {content rest : List UInt8} {s : Reading}
    (stands : s.Stands (content ++ rest)) :
    ∃ outer : Cursor, outer.failure = none ∧ outer.rest = rest ∧
      (Scan.within content.length act).run.run s =
        match act.run.run { s with cursor := { rest := content } } with
        | (.ok _, t) => (.ok (), { t with cursor := outer })
        | (.error fault, t) => (.error fault, t) := by
  let outer : Cursor :=
    { rest, offset := s.cursor.offset + content.length, failure := s.cursor.failure }
  have split : s.cursor.sub content.length = ({ rest := content }, outer) := by
    simp [Cursor.sub, Cursor.bytes, stands.unmarked, stands.front, outer]
  have unmarked : outer.failure = none := stands.unmarked
  have run := run_within content.length act s
  rw [split, unmarked] at run
  exact ⟨outer, unmarked, rfl, run⟩

/-- Actions on stretches of their own that take these to the end. -/
theorem within {act act' : Scan Unit} (inner : Mirrors act bytes act' bytes') :
    Mirrors (Scan.within bytes.length act) bytes (Scan.within bytes'.length act') bytes' := by
  intro s s' rest rest' twin stands stands'
  obtain ⟨outer, unmarked, front, run⟩ := run_within_of_stands act stands
  obtain ⟨outer', unmarked', front', run'⟩ := run_within_of_stands act' stands'
  have ends := inner { s with cursor := { rest := bytes } } { s' with cursor := { rest := bytes' } } [] []
    ⟨twin.symbols, twin.draft⟩ ⟨rfl, by simp⟩ ⟨rfl, by simp⟩
  rw [run, run']
  generalize act.run.run _ = end_, act'.run.run _ = end' at ends ⊢
  cases ends with
  | ok twin stands stands' =>
    exact .ok ⟨twin.symbols, twin.draft⟩ ⟨unmarked, front⟩ ⟨unmarked', front'⟩
  | error twin => exact .error twin

/-- On a stretch that is the same for both, an action does the same whatever it looks at. -/
theorem within_same (act : Scan Unit) (content : List UInt8) :
    Mirrors (Scan.within content.length act) content (Scan.within content.length act) content := by
  intro s s' rest rest' twin stands stands'
  obtain ⟨outer, unmarked, front, run⟩ := run_within_of_stands act stands
  obtain ⟨outer', unmarked', front', run'⟩ := run_within_of_stands act stands'
  have same : ({ s' with cursor := { rest := content } } : Reading) =
      { s with cursor := { rest := content } } := by
    rw [twin.eq_moved]
  rw [run, run', same]
  rcases act.run.run { s with cursor := { rest := content } } with ⟨fault | a, t⟩
  · exact .error ⟨rfl, rfl⟩
  · exact .ok ⟨rfl, rfl⟩ ⟨unmarked, front⟩ ⟨unmarked', front'⟩

end Mirrors

end Scan

end ClasspathAudit.Bytecode
