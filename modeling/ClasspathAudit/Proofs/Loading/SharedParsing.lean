import ClasspathAudit.Loading.ParseCache
import ClasspathAudit.Proofs.Bytecode.SymbolSet

/-!
Parsing with a cache that several workers share. A call asks the cache, parses what the cache does not
know, leaves the class there and hands out a copy. Between two steps of a call the others take theirs,
the cache may forget anything, and whoever was handed a class may write to it. No call shows any of this:
each ends as one that parses the bytes itself.
-/

namespace ClasspathAudit

theorem ClassFile.size_of_accepted {bytes : List UInt8} {c : JavaClass} {m : Option ModuleDescriptor}
    (accepted : parse bytes = .accepted c m) : c.size = bytes.length := by
  obtain ⟨_, _, _, _, _, _, _, _, -, -, -, -, -, -, rfl⟩ := parse_eq_accepted accepted
  rfl

namespace ParseCache

/-- The hash tells inputs of the same length apart. -/
def Separated (inputs : Set (List UInt8)) : Prop :=
  ∀ bytes ∈ inputs, ∀ other ∈ inputs, bytes.length = other.length →
    Digest.contentHash bytes = Digest.contentHash other → bytes = other

/-- A cache after any accesses, and what was added last under each key. -/
inductive Traced : ParseCache → (UInt64 → Option JavaClass) → Prop where
  | fresh (capacity : Nat) : Traced { capacity } fun _ => none
  | get {cache : ParseCache} {added : UInt64 → Option JavaClass} (traced : Traced cache added)
      (key : UInt64) : Traced (cache.get key).2 added
  | add {cache : ParseCache} {added : UInt64 → Option JavaClass} (traced : Traced cache added)
      (key : UInt64) (c : JavaClass) :
      Traced (cache.add key c) (Function.update added key (some c))

/-- A cache after steps of calls on the inputs, in any order. -/
inductive Used (inputs : Set (List UInt8)) : ParseCache → Prop where
  | fresh (capacity : Nat) : Used inputs { capacity }
  | lookup {cache : ParseCache} {bytes : List UInt8} (used : Used inputs cache)
      (input : bytes ∈ inputs) : Used inputs (cache.lookup bytes).2
  | remember {cache : ParseCache} {bytes : List UInt8} (used : Used inputs cache)
      (input : bytes ∈ inputs) : Used inputs (cache.remember bytes (ClassFile.parse bytes))

section

variable {inputs : Set (List UInt8)} {cache : ParseCache} {bytes : List UInt8} {key : UInt64}
variable {entry : UInt64 × JavaClass} {c : JavaClass}

theorem mem_of_get (found : (cache.get key).1 = some c) : (key, c) ∈ cache.entries := by
  rw [get] at found
  split at found
  · cases found
  next entry first =>
    cases found
    have same : entry.1 = key := by simpa using List.find?_some first
    exact same ▸ List.mem_of_find?_eq_some first

theorem mem_of_mem_get (member : entry ∈ (cache.get key).2.entries) : entry ∈ cache.entries := by
  rw [get] at member
  split at member
  · exact member
  next first =>
    rcases List.mem_cons.mp member with rfl | other
    · exact List.mem_of_find?_eq_some first
    · exact List.mem_of_mem_filter other

theorem mem_of_mem_add (member : entry ∈ (cache.add key c).entries) :
    entry = (key, c) ∨ entry ∈ cache.entries ∧ entry.1 ≠ key := by
  rcases List.mem_cons.mp (List.mem_of_mem_take member) with new | old
  · exact .inl new
  · exact .inr (by simpa using List.mem_filter.mp old)

theorem Traced.added_of_mem {added : UInt64 → Option JavaClass} (traced : Traced cache added)
    (member : entry ∈ cache.entries) : added entry.1 = some entry.2 := by
  induction traced with
  | fresh => cases member
  | get _ _ ih => exact ih (mem_of_mem_get member)
  | add _ key c ih =>
    rcases mem_of_mem_add member with rfl | ⟨old, other⟩
    · exact Function.update_self ..
    · rw [Function.update_of_ne other]
      exact ih old

/-- The cache gives what was added last, or nothing. -/
theorem Traced.get_fst {added : UInt64 → Option JavaClass} (traced : Traced cache added)
    (key : UInt64) : (cache.get key).1 = none ∨ (cache.get key).1 = added key := by
  cases found : (cache.get key).1 with
  | none => exact .inl rfl
  | some c => exact .inr (traced.added_of_mem (mem_of_get found)).symm

theorem lookup_eq : cache.lookup bytes =
    ((cache.get (Digest.contentHash bytes)).1.filter (·.size = bytes.length),
      (cache.get (Digest.contentHash bytes)).2) := by
  rw [lookup]
  split
  next equal => simp [equal, Option.filter_some]
  next equal => simp [equal]

/-- Whatever is kept was accepted, and stands under the hash of its bytes. -/
theorem Used.accepted (used : Used inputs cache) (member : entry ∈ cache.entries) :
    ∃ bytes ∈ inputs, Digest.contentHash bytes = entry.1 ∧
      ∃ m, ClassFile.parse bytes = .accepted entry.2 m := by
  induction used with
  | fresh => cases member
  | lookup _ _ ih =>
    rw [lookup_eq] at member
    exact ih (mem_of_mem_get member)
  | @remember cache bytes _ input ih =>
    cases parsed : ClassFile.parse bytes with
    | accepted found m =>
      rw [parsed] at member
      rcases mem_of_mem_add member with rfl | ⟨old, -⟩
      · exact ⟨bytes, input, rfl, m, parsed⟩
      · exact ih old
    | _ =>
      rw [parsed] at member
      exact ih member

theorem Used.parse_fst (separated : Separated inputs) (used : Used inputs cache)
    (input : bytes ∈ inputs) :
    (cache.parse bytes).1 = ((ClassFile.parse bytes).class?, (ClassFile.parse bytes).failure?) := by
  rw [parse, lookup_eq]
  split
  next found cache' equal =>
    obtain ⟨taken, -⟩ := Prod.mk.inj equal
    obtain ⟨known, size⟩ := Option.filter_eq_some_iff.mp taken
    obtain ⟨other, member, hash, m, accepted⟩ := used.accepted (mem_of_get known)
    rw [decide_eq_true_eq, ClassFile.size_of_accepted accepted] at size
    rw [← separated other member bytes input size hash, accepted]
    rfl
  · rfl

/-- A whole call is its two steps, one after the other. -/
theorem Used.parse_snd (used : Used inputs cache) (input : bytes ∈ inputs) :
    Used inputs (cache.parse bytes).2 := by
  have asked := used.lookup input
  rw [parse]
  split
  next equal =>
    rw [equal] at asked
    exact asked
  next equal =>
    rw [equal] at asked
    exact asked.remember input

end

end ParseCache

namespace SharedParsing

open ParseCache (Separated)

/-- How far a worker is with a call. Classes are known by where they stand in memory. -/
inductive Phase where
  | idle
  | asking (bytes : List UInt8)
  /-- The cache has answered with a class, which may be that of other bytes. -/
  | holding (bytes : List UInt8) (address : Nat)
  | parsing (bytes : List UInt8)
  /-- The class was parsed and is not in the cache yet. -/
  | keeping (bytes : List UInt8) (address : Nat)
  | copying (bytes : List UInt8) (address : Nat)

namespace Phase

def bytes? : Phase → Option (List UInt8)
  | idle => none
  | asking bytes | holding bytes _ | parsing bytes | keeping bytes _ | copying bytes _ => some bytes

/-- How many steps the call has still to go at most. -/
def rank : Phase → Nat
  | idle => 0
  | copying _ _ => 1
  | keeping _ _ => 2
  | parsing _ => 3
  | holding _ _ => 4
  | asking _ => 5

theorem exists_bytes {phase : Phase} (busy : phase ≠ .idle) : ∃ bytes, phase.bytes? = some bytes := by
  cases phase with
  | idle => exact absurd rfl busy
  | _ bytes => exact ⟨bytes, rfl⟩

end Phase

/-- What a call has returned, as it was when it was returned. -/
structure Answer (Worker : Type) where
  worker : Worker
  bytes : List UInt8
  class? : Option JavaClass
  failure? : Option Failure

/-- The answer of a call that parses the bytes itself. -/
def Answer.direct {Worker : Type} (worker : Worker) (bytes : List UInt8) : Answer Worker :=
  ⟨worker, bytes, (ClassFile.parse bytes).class?, (ClassFile.parse bytes).failure?⟩

structure State (Worker : Type) where
  memory : List JavaClass := []
  /-- The address that was added to the cache last under each key. -/
  added : UInt64 → Option Nat := fun _ => none
  phase : Worker → Phase := fun _ => .idle
  /-- The addresses that callers hold. -/
  given : List Nat := []
  answers : List (Answer Worker) := []

section

variable {Worker : Type} [DecidableEq Worker]

namespace State

def enter (s : State Worker) (worker : Worker) (phase : Phase) : State Worker :=
  { s with phase := Function.update s.phase worker phase }

/-- Ends a call. A class that is returned stands in a place of its own. -/
def answer (s : State Worker) (answer : Answer Worker) : State Worker where
  memory := s.memory ++ answer.class?.toList
  added := s.added
  phase := Function.update s.phase answer.worker .idle
  given := if answer.class?.isSome then s.memory.length :: s.given else s.given
  answers := s.answers ++ [answer]

end State

/-- A step of a worker, or of someone who holds a class that was returned. -/
inductive Step (inputs : Set (List UInt8)) : Option Worker → State Worker → State Worker → Prop where
  | call {s : State Worker} {worker : Worker} {bytes : List UInt8} (here : s.phase worker = .idle)
      (input : bytes ∈ inputs) : Step inputs (some worker) s (s.enter worker (.asking bytes))
  | hit {s : State Worker} {worker : Worker} {bytes : List UInt8} {address : Nat}
      (here : s.phase worker = .asking bytes)
      (known : s.added (Digest.contentHash bytes) = some address) :
      Step inputs (some worker) s (s.enter worker (.holding bytes address))
  /-- Also what was added may be forgotten. -/
  | miss {s : State Worker} {worker : Worker} {bytes : List UInt8}
      (here : s.phase worker = .asking bytes) :
      Step inputs (some worker) s (s.enter worker (.parsing bytes))
  | fit {s : State Worker} {worker : Worker} {bytes : List UInt8} {address : Nat} {c : JavaClass}
      (here : s.phase worker = .holding bytes address) (read : s.memory[address]? = some c)
      (size : c.size = bytes.length) :
      Step inputs (some worker) s (s.enter worker (.copying bytes address))
  | unfit {s : State Worker} {worker : Worker} {bytes : List UInt8} {address : Nat} {c : JavaClass}
      (here : s.phase worker = .holding bytes address) (read : s.memory[address]? = some c)
      (size : c.size ≠ bytes.length) :
      Step inputs (some worker) s (s.enter worker (.parsing bytes))
  | fail {s : State Worker} {worker : Worker} {bytes : List UInt8} {failure : Failure}
      (here : s.phase worker = .parsing bytes)
      (failed : (ClassFile.parse bytes).failure? = some failure) :
      Step inputs (some worker) s
        (s.answer ⟨worker, bytes, (ClassFile.parse bytes).class?, some failure⟩)
  | accept {s : State Worker} {worker : Worker} {bytes : List UInt8} {c : JavaClass}
      {m : Option ModuleDescriptor} (here : s.phase worker = .parsing bytes)
      (accepted : ClassFile.parse bytes = .accepted c m) :
      Step inputs (some worker) s
        ({ s with memory := s.memory ++ [c] }.enter worker (.keeping bytes s.memory.length))
  | keep {s : State Worker} {worker : Worker} {bytes : List UInt8} {address : Nat}
      (here : s.phase worker = .keeping bytes address) :
      Step inputs (some worker) s
        ({ s with added := Function.update s.added (Digest.contentHash bytes) (some address) }.enter
          worker (.copying bytes address))
  | copy {s : State Worker} {worker : Worker} {bytes : List UInt8} {address : Nat} {c : JavaClass}
      (here : s.phase worker = .copying bytes address) (read : s.memory[address]? = some c) :
      Step inputs (some worker) s (s.answer ⟨worker, bytes, some c, none⟩)
  | write {s : State Worker} {address : Nat} (held : address ∈ s.given) (c : JavaClass) :
      Step inputs none s { s with memory := s.memory.set address c }

inductive Reached (inputs : Set (List UInt8)) : State Worker → Prop where
  | start : Reached inputs {}
  | step {s next : State Worker} {actor : Option Worker} (reached : Reached inputs s)
      (step : Step inputs actor s next) : Reached inputs next

/-- The bytes are accepted, their class stands at the address, and no caller holds it. -/
def State.Holds (s : State Worker) (address : Nat) (bytes : List UInt8) : Prop :=
  address ∉ s.given ∧
    ∃ c m, ClassFile.parse bytes = .accepted c m ∧ s.memory[address]? = some c

/-- What a worker relies on in the midst of a call. -/
def State.Supports (inputs : Set (List UInt8)) (s : State Worker) : Phase → Prop
  | .idle => True
  | .asking bytes | .parsing bytes => bytes ∈ inputs
  | .holding bytes address => bytes ∈ inputs ∧ ∃ other ∈ inputs,
      Digest.contentHash other = Digest.contentHash bytes ∧ s.Holds address other
  | .keeping bytes address | .copying bytes address => bytes ∈ inputs ∧ s.Holds address bytes

structure Sound (inputs : Set (List UInt8)) (s : State Worker) : Prop where
  bounded : ∀ address ∈ s.given, address < s.memory.length
  once : s.given.Nodup
  cached : ∀ key address, s.added key = some address →
    ∃ bytes ∈ inputs, Digest.contentHash bytes = key ∧ s.Holds address bytes
  supported : ∀ worker, s.Supports inputs (s.phase worker)
  right : ∀ answer ∈ s.answers, answer = .direct answer.worker answer.bytes

variable {inputs : Set (List UInt8)} {s next : State Worker} {actor : Option Worker} {worker : Worker}
variable {address : Nat} {bytes : List UInt8}

theorem getElem?_memory_append {memory more : List JavaClass} {c : JavaClass}
    (read : memory[address]? = some c) : (memory ++ more)[address]? = some c := by
  rw [List.getElem?_append_left (List.getElem?_eq_some_iff.mp read).1]
  exact read

-- What is handed out stands behind everything that was there before.
theorem State.Holds.answer (holds : s.Holds address bytes) (answer : Answer Worker) :
    (s.answer answer).Holds address bytes := by
  obtain ⟨kept, c, m, accepted, read⟩ := holds
  have inside := (List.getElem?_eq_some_iff.mp read).1
  refine ⟨?_, c, m, accepted, getElem?_memory_append read⟩
  rw [State.answer]
  split
  · rw [List.mem_cons, not_or]
    exact ⟨Nat.ne_of_lt inside, kept⟩
  · exact kept

theorem State.bounded_answer (bounded : ∀ address ∈ s.given, address < s.memory.length)
    (answer : Answer Worker) :
    ∀ address ∈ (s.answer answer).given, address < (s.answer answer).memory.length := by
  intro address member
  simp only [State.answer, List.length_append] at member ⊢
  split at member
  next returned =>
    obtain ⟨c, returned⟩ := Option.isSome_iff_exists.mp returned
    rw [returned, Option.toList_some, List.length_singleton]
    rcases List.mem_cons.mp member with rfl | member
    · exact Nat.lt_succ_self _
    · exact Nat.lt_succ_of_lt (bounded address member)
  · exact Nat.lt_of_lt_of_le (bounded address member) (Nat.le_add_right _ _)

theorem State.once_answer (bounded : ∀ address ∈ s.given, address < s.memory.length)
    (once : s.given.Nodup) (answer : Answer Worker) : (s.answer answer).given.Nodup := by
  rw [State.answer]
  split
  · exact List.nodup_cons.mpr ⟨fun member => Nat.lt_irrefl _ (bounded _ member), once⟩
  · exact once

/-- No step touches a class that no caller holds. -/
theorem Step.holds (step : Step inputs actor s next) (holds : s.Holds address bytes) :
    next.Holds address bytes := by
  cases step with
  | fail => exact holds.answer _
  | copy => exact holds.answer _
  | accept =>
    obtain ⟨kept, c, m, accepted, read⟩ := holds
    exact ⟨kept, c, m, accepted, getElem?_memory_append read⟩
  | @write _ written held c' =>
    obtain ⟨kept, c, m, accepted, read⟩ := holds
    refine ⟨kept, c, m, accepted, ?_⟩
    -- only what a caller holds is written to
    have other : written ≠ address := fun same => kept (same ▸ held)
    rw [List.getElem?_set_ne other]
    exact read
  | _ => exact holds

theorem Step.supports (step : Step inputs actor s next) {phase : Phase}
    (supports : s.Supports inputs phase) : next.Supports inputs phase := by
  cases phase with
  | idle => trivial
  | asking bytes => exact supports
  | parsing bytes => exact supports
  | holding bytes address =>
    obtain ⟨input, other, member, same, holds⟩ := supports
    exact ⟨input, other, member, same, step.holds holds⟩
  | keeping bytes address => exact ⟨supports.1, step.holds supports.2⟩
  | copying bytes address => exact ⟨supports.1, step.holds supports.2⟩

theorem Step.bounded (step : Step inputs actor s next)
    (bounded : ∀ address ∈ s.given, address < s.memory.length) :
    ∀ address ∈ next.given, address < next.memory.length := by
  cases step with
  | fail => exact State.bounded_answer bounded _
  | copy => exact State.bounded_answer bounded _
  | accept =>
    intro address member
    have below := bounded address member
    rw [State.enter, List.length_append]
    exact Nat.lt_of_lt_of_le below (Nat.le_add_right _ _)
  | write =>
    intro address member
    rw [List.length_set]
    exact bounded address member
  | _ => exact bounded

theorem Step.once (step : Step inputs actor s next)
    (bounded : ∀ address ∈ s.given, address < s.memory.length) (once : s.given.Nodup) :
    next.given.Nodup := by
  cases step with
  | fail => exact State.once_answer bounded once _
  | copy => exact State.once_answer bounded once _
  | _ => exact once

theorem Step.cached (step : Step inputs actor s next) (sound : Sound inputs s) {key : UInt64}
    (added : next.added key = some address) :
    ∃ bytes ∈ inputs, Digest.contentHash bytes = key ∧ next.Holds address bytes := by
  have before : s.added key = some address →
      ∃ bytes ∈ inputs, Digest.contentHash bytes = key ∧ next.Holds address bytes := by
    intro added
    obtain ⟨bytes, input, hash, holds⟩ := sound.cached key address added
    exact ⟨bytes, input, hash, step.holds holds⟩
  cases step with
  | @keep _ worker bytes kept here =>
    -- the only step that adds, and it adds what its worker has just parsed
    by_cases same : key = Digest.contentHash bytes
    · subst same
      simp only [State.enter, Function.update_self, Option.some.injEq] at added
      subst added
      have supports := sound.supported worker
      rw [here] at supports
      exact ⟨bytes, supports.1, rfl, supports.2⟩
    · apply before
      simpa only [State.enter, Function.update_of_ne same] using added
  | _ => exact before added

theorem supported_update {phase : Phase} (step : Step inputs actor s next) (sound : Sound inputs s)
    (moves : next.phase = Function.update s.phase worker phase) (enters : next.Supports inputs phase) :
    ∀ other, next.Supports inputs (next.phase other) := by
  intro other
  rw [moves]
  by_cases same : other = worker
  · subst same
    rw [Function.update_self]
    exact enters
  · rw [Function.update_of_ne same]
    exact step.supports (sound.supported other)

omit [DecidableEq Worker] in
/-- The class under the key of the bytes is theirs if it has their size. -/
theorem holds_of_fit (separated : Separated inputs)
    (supports : s.Supports inputs (.holding bytes address)) {c : JavaClass}
    (read : s.memory[address]? = some c) (size : c.size = bytes.length) : s.Holds address bytes := by
  obtain ⟨input, other, member, hash, holds⟩ := supports
  obtain ⟨c', m, accepted, read'⟩ := holds.2
  rw [read, Option.some.injEq] at read'
  subst read'
  have length : other.length = bytes.length := (ClassFile.size_of_accepted accepted).symm.trans size
  rw [← separated other member bytes input length hash]
  exact holds

theorem Step.supported (separated : Separated inputs) (step : Step inputs actor s next)
    (sound : Sound inputs s) : ∀ worker, next.Supports inputs (next.phase worker) := by
  have relies : ∀ {worker phase}, s.phase worker = phase → s.Supports inputs phase := by
    intro worker phase here
    exact here ▸ sound.supported worker
  cases step with
  | call here input => exact supported_update (.call here input) sound rfl input
  | hit here known =>
    refine supported_update (.hit here known) sound rfl ⟨relies here, ?_⟩
    exact sound.cached _ _ known
  | miss here => exact supported_update (.miss here) sound rfl (relies here)
  | fit here read size =>
    refine supported_update (.fit here read size) sound rfl ⟨(relies here).1, ?_⟩
    exact holds_of_fit separated (relies here) read size
  | unfit here read size => exact supported_update (.unfit here read size) sound rfl (relies here).1
  | fail here failed => exact supported_update (.fail here failed) sound rfl trivial
  | @accept _ _ bytes c m here accepted =>
    refine supported_update (.accept here accepted) sound rfl ⟨relies here, ?_, c, m, accepted, ?_⟩
    · exact fun member => Nat.lt_irrefl _ (sound.bounded _ member)
    · exact List.getElem?_concat_length
  | keep here => exact supported_update (.keep here) sound rfl (relies here)
  | copy here read => exact supported_update (.copy here read) sound rfl trivial
  | write held c => exact fun worker => (Step.write held c).supports (sound.supported worker)

theorem Step.right (step : Step inputs actor s next) (sound : Sound inputs s) :
    ∀ answer ∈ next.answers, answer = .direct answer.worker answer.bytes := by
  have answered : ∀ last : Answer Worker, last = .direct last.worker last.bytes →
      ∀ answer ∈ (s.answer last).answers, answer = .direct answer.worker answer.bytes := by
    intro last direct answer member
    rcases List.mem_append.mp member with earlier | new
    · exact sound.right answer earlier
    · rw [List.mem_singleton.mp new]
      exact direct
  cases step with
  | fail here failed =>
    apply answered
    rw [Answer.direct, failed]
  | @copy _ worker bytes address c here read =>
    have supports := sound.supported worker
    rw [here] at supports
    obtain ⟨-, -, c', m, accepted, read'⟩ := supports
    rw [read, Option.some.injEq] at read'
    subst read'
    apply answered
    rw [Answer.direct, accepted]
    rfl
  | _ => exact sound.right

omit [DecidableEq Worker] in
theorem sound_start : Sound inputs ({} : State Worker) where
  bounded _ member := nomatch member
  once := .nil
  cached _ _ added := nomatch added
  supported _ := trivial
  right _ member := nomatch member

theorem Step.sound (separated : Separated inputs) (step : Step inputs actor s next)
    (sound : Sound inputs s) : Sound inputs next where
  bounded := step.bounded sound.bounded
  once := step.once sound.bounded sound.once
  cached _ _ := step.cached sound
  supported := step.supported separated sound
  right := step.right sound

theorem Reached.sound (separated : Separated inputs) (reached : Reached inputs s) : Sound inputs s := by
  induction reached with
  | start => exact sound_start
  | step _ step ih => exact step.sound separated ih

theorem Sound.able (sound : Sound inputs s) (busy : s.phase worker ≠ .idle) :
    ∃ next, Step inputs (some worker) s next := by
  have supports := sound.supported worker
  cases here : s.phase worker with
  | idle => exact absurd here busy
  | asking bytes => exact ⟨_, .miss here⟩
  | holding bytes address =>
    rw [here] at supports
    obtain ⟨-, other, -, -, -, c, -, -, read⟩ := supports
    by_cases size : c.size = bytes.length
    · exact ⟨_, .fit here read size⟩
    · exact ⟨_, .unfit here read size⟩
  | parsing bytes =>
    cases parsed : ClassFile.parse bytes with
    | accepted c m => exact ⟨_, .accept here parsed⟩
    | degraded c m => exact ⟨_, .fail here (by rw [parsed]; rfl)⟩
    | malformed defect => exact ⟨_, .fail here (by rw [parsed]; rfl)⟩
  | keeping bytes address => exact ⟨_, .keep here⟩
  | copying bytes address =>
    rw [here] at supports
    obtain ⟨-, -, c, -, -, read⟩ := supports
    exact ⟨_, .copy here read⟩

theorem Step.still (step : Step inputs actor s next) (other : actor ≠ some worker) :
    next.phase worker = s.phase worker := by
  cases step with
  | write => rfl
  | _ =>
    apply Function.update_of_ne
    rintro rfl
    exact other rfl

/-- An own step brings a call nearer to its end, or ends it with an answer for its bytes. -/
theorem Step.own (step : Step inputs (some worker) s next)
    (busy : (s.phase worker).bytes? = some bytes) :
    (next.phase worker).rank < (s.phase worker).rank ∧
      ((next.phase worker).bytes? = some bytes ∧ next.answers = s.answers ∨
        next.phase worker = .idle ∧ ∃ answer : Answer Worker, answer.worker = worker ∧
          answer.bytes = bytes ∧ next.answers = s.answers ++ [answer]) := by
  cases step with
  | call here input =>
    rw [here] at busy
    cases busy
  | fail here failed =>
    rw [here] at busy ⊢
    cases busy
    simp [State.answer, Phase.rank]
  | copy here read =>
    rw [here] at busy ⊢
    cases busy
    simp [State.answer, Phase.rank]
  | _ here =>
    rw [here] at busy ⊢
    cases busy
    simp [State.enter, Phase.rank, Phase.bytes?]

/-- By induction on the steps that are left: alone, a worker ends its call with the direct answer. -/
theorem Sound.returns (separated : Separated inputs) (sound : Sound inputs s)
    (busy : (s.phase worker).bytes? = some bytes) :
    ∃ next, Relation.ReflTransGen (Step inputs (some worker)) s next ∧
      next.phase worker = .idle ∧ next.answers = s.answers ++ [.direct worker bytes] := by
  induction left : (s.phase worker).rank using Nat.strong_induction_on generalizing s with
  | _ rank ih =>
    have unfinished : s.phase worker ≠ .idle := by
      intro idle
      rw [idle] at busy
      cases busy
    obtain ⟨next, step⟩ := sound.able unfinished
    have after := step.sound separated sound
    obtain ⟨nearer, ⟨going, same⟩ | ⟨idle, answer, rfl, rfl, answers⟩⟩ := step.own busy
    · obtain ⟨last, steps, idle, answers⟩ := ih _ (left ▸ nearer) after going rfl
      exact ⟨last, .head step steps, idle, same ▸ answers⟩
    · refine ⟨next, .single step, idle, ?_⟩
      rw [answers, ← after.right answer (by simp [answers])]

/-- What a state shows of the calls. -/
structure Transparent (inputs : Set (List UInt8)) (s : State Worker) : Prop where
  /-- Every call has returned the class and the failure that parsing its bytes gives. -/
  right : ∀ answer ∈ s.answers, answer = .direct answer.worker answer.bytes
  /-- No class was handed out twice. -/
  once : s.given.Nodup
  able : ∀ worker, s.phase worker ≠ .idle → ∃ next, Step inputs (some worker) s next
  nearer : ∀ worker next, s.phase worker ≠ .idle → Step inputs (some worker) s next →
    (next.phase worker).rank < (s.phase worker).rank
  still : ∀ worker actor next, actor ≠ some worker → Step inputs actor s next →
    next.phase worker = s.phase worker
  returns : ∀ worker bytes, (s.phase worker).bytes? = some bytes →
    ∃ next, Relation.ReflTransGen (Step inputs (some worker)) s next ∧
      next.phase worker = .idle ∧ next.answers = s.answers ++ [.direct worker bytes]

theorem Sound.transparent (separated : Separated inputs) (sound : Sound inputs s) :
    Transparent inputs s where
  right := sound.right
  once := sound.once
  able _ := sound.able
  nearer _ _ busy step := by
    obtain ⟨bytes, found⟩ := Phase.exists_bytes busy
    exact (step.own found).1
  still _ _ _ other step := step.still other
  returns _ _ := sound.returns separated

end

/-- Calls that share a cache end as calls without one: those of any workers, step by step between each
other, on a cache that gives what was added last or nothing; and those on a bounded cache, which is such a
one, after any steps of calls. -/
theorem parse_ignores_cache (inputs : Set (List UInt8)) (separated : Separated inputs) (Worker : Type)
    [DecidableEq Worker] :
    (∀ s : State Worker, Reached inputs s → Transparent inputs s) ∧
      (∀ cache added, ParseCache.Traced cache added → ∀ key,
        (cache.get key).1 = none ∨ (cache.get key).1 = added key) ∧
      ∀ cache, ParseCache.Used inputs cache → ∀ bytes ∈ inputs,
        (cache.parse bytes).1 =
          ((ClassFile.parse bytes).class?, (ClassFile.parse bytes).failure?) ∧
        ParseCache.Used inputs (cache.parse bytes).2 := by
  refine ⟨?_, ?_, ?_⟩
  · intro s reached
    exact (reached.sound separated).transparent separated
  · intro cache added traced
    exact traced.get_fst
  · intro cache used bytes input
    exact ⟨used.parse_fst separated input, used.parse_snd input⟩

/-- One worker leaves a class in the cache and its caller spoils the copy; another one then finds the
class there, and fails on other bytes. -/
theorem reached_shared {inputs : Set (List UInt8)} {bytes faulty : List UInt8} {c : JavaClass}
    {m : Option ModuleDescriptor} {failure : Failure} (input : bytes ∈ inputs) (input' : faulty ∈ inputs)
    (accepted : ClassFile.parse bytes = .accepted c m)
    (failed : (ClassFile.parse faulty).failure? = some failure) :
    ∃ s : State Bool, Reached inputs s ∧ s.answers.map (fun a => (a.worker, a.bytes)) =
      [(false, bytes), (true, bytes), (true, faulty)] := by
  refine ⟨_, Reached.start
    |>.step (@Step.call Bool _ inputs _ false bytes rfl input)
    |>.step (@Step.miss _ _ _ _ false bytes rfl)
    |>.step (@Step.accept _ _ _ _ false bytes c m rfl accepted)
    |>.step (@Step.keep _ _ _ _ false bytes 0 rfl)
    |>.step (@Step.copy _ _ _ _ false bytes 0 c rfl rfl)
    |>.step (@Step.write _ _ _ _ 1 (List.mem_singleton_self 1) { c with name := "" })
    |>.step (@Step.call _ _ _ _ true bytes rfl input)
    |>.step (@Step.hit _ _ _ _ true bytes 0 rfl (Function.update_self ..))
    |>.step (@Step.fit _ _ _ _ true bytes 0 c rfl rfl (ClassFile.size_of_accepted accepted))
    |>.step (@Step.copy _ _ _ _ true bytes 0 c rfl rfl)
    |>.step (@Step.call _ _ _ _ true faulty rfl input')
    |>.step (@Step.miss _ _ _ _ true faulty rfl)
    |>.step (@Step.fail _ _ _ _ true faulty failure rfl failed), ?_⟩
  rfl

def unitBytes : List UInt8 :=
  [0xCA, 0xFE, 0xBA, 0xBE, 0, 0, 0, 52, 0, 5, 7, 0, 2, 1, 0, 1, 65, 7, 0, 4, 1, 0, 1, 66, 0, 0x21,
    0, 1, 0, 3, 0, 0, 0, 0, 0, 0, 0, 0]

def unitInputs : Set (List UInt8) := {unitBytes, unitBytes.take 19}

theorem parse_ignores_cache_unit :
    Separated unitInputs ∧ ∃ s : State Bool, Reached unitInputs s ∧
      s.answers.map (fun a => (a.worker, a.bytes)) =
        [(false, unitBytes), (true, unitBytes), (true, unitBytes.take 19)] ∧
      Transparent unitInputs s := by
  have separated : Separated unitInputs := by
    rintro bytes (rfl | rfl) other (rfl | rfl) length -
    · rfl
    · cases length
    · cases length
    · rfl
  have whole : (ClassFile.parse unitBytes).failure? = none := by decide +kernel
  have cut : (ClassFile.parse (unitBytes.take 19)).failure?.isSome = true := by decide +kernel
  obtain ⟨failure, failed⟩ := Option.isSome_iff_exists.mp cut
  obtain ⟨c, m, accepted⟩ : ∃ c m, ClassFile.parse unitBytes = .accepted c m := by
    cases parsed : ClassFile.parse unitBytes with
    | accepted c m => exact ⟨c, m, rfl⟩
    | _ =>
      rw [parsed] at whole
      cases whole
  have input : unitBytes ∈ unitInputs := .inl rfl
  have input' : unitBytes.take 19 ∈ unitInputs := .inr rfl
  obtain ⟨s, reached, answers⟩ := reached_shared input input' accepted failed
  exact ⟨separated, s, reached, answers, (parse_ignores_cache unitInputs separated Bool).1 s reached⟩

end SharedParsing

end ClasspathAudit
