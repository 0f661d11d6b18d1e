import ClasspathAudit.Model.Jar
import Mathlib.Tactic

/-!
Lookup in release layers. Layers are created on demand and sorted at the end; what a lookup finds is
told by what each release holds, whatever the order in which the layers came.
-/

namespace ClasspathAudit

section

variable {α β : Type} {f : α → Option β} {R : α → α → Prop}

/-- The answer of the last element that gives one. -/
def lastAnswer? (f : α → Option β) (xs : List α) : Option β :=
  xs.foldl (fun found x => (f x).or found) none

theorem foldl_or_eq (f : α → Option β) (xs : List α) (start : Option β) :
    xs.foldl (fun found x => (f x).or found) start = (lastAnswer? f xs).or start := by
  induction xs generalizing start with
  | nil => simp [lastAnswer?]
  | cons x xs ih =>
    rw [lastAnswer?, List.foldl_cons, List.foldl_cons, ih, ih, Option.or_none, Option.or_assoc]

theorem lastAnswer?_cons (x : α) (xs : List α) :
    lastAnswer? f (x :: xs) = (lastAnswer? f xs).or (f x) := by
  rw [lastAnswer?, List.foldl_cons, foldl_or_eq]
  simp

theorem exists_of_lastAnswer? {xs : List α} {b : β} (last : lastAnswer? f xs = some b) :
    ∃ a ∈ xs, f a = some b := by
  induction xs with
  | nil => cases last
  | cons x xs ih =>
    rw [lastAnswer?_cons, Option.or_eq_some_iff] at last
    rcases last with later | ⟨_, first⟩
    · obtain ⟨a, member, answer⟩ := ih later
      exact ⟨a, List.mem_cons_of_mem x member, answer⟩
    · exact ⟨x, List.mem_cons_self, first⟩

theorem lastAnswer?_map {γ : Type} (g : β → γ) (xs : List α) :
    lastAnswer? (fun x => (f x).map g) xs = (lastAnswer? f xs).map g := by
  induction xs with
  | nil => rfl
  | cons x xs ih => rw [lastAnswer?_cons, lastAnswer?_cons, ih, Option.map_or]

/-- Where every step answers for itself or leaves what is read as it was, the last answer is read in
the end. -/
theorem read_foldl {σ : Type} {step : σ → α → σ} (read : σ → Option β)
    (answers : ∀ s x, read (step s x) = (f x).or (read s)) (xs : List α) (s : σ) :
    read (xs.foldl step s) = (lastAnswer? f xs).or (read s) := by
  induction xs generalizing s with
  | nil => rfl
  | cons x xs ih => rw [List.foldl_cons, ih, answers, lastAnswer?_cons, Option.or_assoc]

theorem lastAnswer?_eq_none_iff {xs : List α} :
    lastAnswer? f xs = none ↔ ∀ x ∈ xs, f x = none := by
  induction xs with
  | nil => simp [lastAnswer?]
  | cons x xs ih =>
    rw [lastAnswer?_cons, Option.or_eq_none_iff, ih, List.forall_mem_cons, and_comm]

/-- In a list that ascends strictly, the last answer is that of an element above which none answers. -/
theorem lastAnswer?_eq_some_iff {xs : List α} {b : β} (ascends : xs.Pairwise R)
    (asymmetric : ∀ x y, R x y → ¬ R y x) :
    lastAnswer? f xs = some b ↔
      ∃ a ∈ xs, f a = some b ∧ ∀ x ∈ xs, R a x → f x = none := by
  induction xs with
  | nil => simp [lastAnswer?]
  | cons x xs ih =>
    have above : ∀ y ∈ xs, R x y := fun y member => List.rel_of_pairwise_cons ascends member
    rw [lastAnswer?_cons, Option.or_eq_some_iff, ih ascends.of_cons, lastAnswer?_eq_none_iff]
    constructor
    · rintro (⟨a, inside, answer, last⟩ | ⟨silent, answer⟩)
      · refine ⟨a, List.mem_cons_of_mem x inside, answer, ?_⟩
        intro y member greater
        rcases List.mem_cons.mp member with rfl | later
        · exact absurd (above a inside) (asymmetric _ _ greater)
        · exact last y later greater
      · refine ⟨x, List.mem_cons_self, answer, ?_⟩
        intro y member greater
        rcases List.mem_cons.mp member with rfl | later
        · exact absurd greater (asymmetric _ _ greater)
        · exact silent y later
    · rintro ⟨a, inside, answer, last⟩
      rcases List.mem_cons.mp inside with rfl | later
      · exact .inr ⟨fun y member => last y (List.mem_cons_of_mem a member) (above y member), answer⟩
      · exact .inl ⟨a, later, answer, fun y member => last y (List.mem_cons_of_mem x member)⟩

theorem takeWhile_eq_filter {p : α → Bool} {xs : List α} (ascends : xs.Pairwise R)
    (downward : ∀ x ∈ xs, ∀ y ∈ xs, R x y → p y = true → p x = true) :
    xs.takeWhile p = xs.filter p := by
  induction xs with
  | nil => rfl
  | cons x xs ih =>
    have rest := ih ascends.of_cons fun y inside z inside' =>
      downward y (List.mem_cons_of_mem x inside) z (List.mem_cons_of_mem x inside')
    cases holds : p x with
    | true => rw [List.takeWhile_cons_of_pos holds, List.filter_cons_of_pos holds, rest]
    | false =>
      have none : ∀ y ∈ xs, ¬ p y = true := by
        intro y member later
        have first := downward x List.mem_cons_self y (List.mem_cons_of_mem x member)
          (List.rel_of_pairwise_cons ascends member) later
        rw [holds] at first
        cases first
      rw [List.takeWhile_cons_of_neg (by simp [holds]), List.filter_cons_of_neg (by simp [holds]),
        List.filter_eq_nil_iff.mpr none]

section

variable {κ : Type} [LE κ] [DecidableLE κ] [Std.IsLinearOrder κ]

/-- Sorting items by their keys makes the keys ascend. -/
theorem pairwise_mergeSort_key (key : α → κ) (xs : List α) :
    (xs.mergeSort fun a b => decide (key a ≤ key b)).Pairwise fun a b => key a ≤ key b :=
  List.pairwise_mergeSort' (Order.Preimage key (· ≤ ·)) xs

/-- Sorting once more changes nothing. -/
theorem mergeSort_mergeSort_key (key : α → κ) (xs : List α) :
    (xs.mergeSort fun a b => decide (key a ≤ key b)).mergeSort (fun a b => decide (key a ≤ key b)) =
      xs.mergeSort fun a b => decide (key a ≤ key b) :=
  List.mergeSort_of_pairwise ((pairwise_mergeSort_key key xs).imp decide_eq_true)

/-- The keys ascend strictly if no two of them are the same. -/
theorem mergeSort_ascending [LT κ] [Std.LawfulOrderLT κ] {key : α → κ} {xs : List α}
    (distinct : xs.Pairwise fun a b => key a ≠ key b) :
    (xs.mergeSort fun a b => decide (key a ≤ key b)).Pairwise fun a b => key a < key b := by
  have different : (xs.mergeSort fun a b => decide (key a ≤ key b)).Pairwise fun a b => key a ≠ key b :=
    distinct.perm (List.mergeSort_perm _ _).symm fun unequal => unequal.symm
  refine ((pairwise_mergeSort_key key xs).and different).imp ?_
  rintro a b ⟨below, unequal⟩
  exact Std.lt_of_le_of_ne below unequal

end

theorem nodup_eraseDups [BEq α] [LawfulBEq α] (xs : List α) : xs.eraseDups.Nodup := by
  -- each step goes on with the items that differ from the first
  induction size : xs.length using Nat.strong_induction_on generalizing xs with
  | _ n ih =>
    cases xs with
    | nil => simp
    | cons x xs =>
      have shorter : (xs.filter fun y => !y == x).length < n := by
        rw [← size, List.length_cons]
        exact Nat.lt_succ_of_le (List.length_filter_le _ _)
      rw [List.eraseDups_cons, List.nodup_cons]
      exact ⟨by simp, ih _ shorter _ rfl⟩

end

/-- Texts sorted and freed of repetition ascend strictly. -/
theorem eraseDups_mergeSort_ascending (texts : List String) :
    (texts.eraseDups.mergeSort fun a b => decide (a ≤ b)).Pairwise (· < ·) :=
  mergeSort_ascending (nodup_eraseDups texts)

namespace Layer

theorem get?_add (layer : Layer) (c : JavaClass) (name : String) :
    (layer.add c).get? name = if name = c.name then some c else layer.get? name := by
  by_cases same : name = c.name
  · simp [get?, add, same]
  · have other : c.name ≠ name := fun equal => same equal.symm
    rw [if_neg same, get?, add, List.find?_cons_of_neg (by simpa using other), List.find?_filter]
    congr 1
    funext found
    by_cases hit : found.name = name
    · simp [hit, same]
    · simp [hit]

end Layer

namespace Jar

/-- The releases are all different, and none lies below the base. -/
structure Layered (layers : List Layer) : Prop where
  distinct : layers.Pairwise fun a b => a.release ≠ b.release
  based : ∀ layer ∈ layers, baseRelease ≤ layer.release

/-- The class that a release holds under a name. -/
def classAt? (layers : List Layer) (release : Int) (name : String) : Option JavaClass :=
  (layers.find? (·.release = release)).bind (·.get? name)

theorem classAt?_cons (layer : Layer) (layers : List Layer) (release : Int) (name : String) :
    classAt? (layer :: layers) release name =
      if layer.release = release then layer.get? name else classAt? layers release name := by
  by_cases hit : layer.release = release
  · simp [classAt?, hit]
  · simp [classAt?, hit]

theorem base_get? (jar : Jar) (name : String) :
    jar.base.get? name = classAt? jar.layers baseRelease name := by
  rw [base, layer?, classAt?]
  cases jar.layers.find? fun layer => layer.release = baseRelease with
  | none => rfl
  | some layer => rfl

theorem mem_update {f : Layer → Layer} {release : Int} {layers : List Layer} {layer : Layer}
    (member : layer ∈ updateLayer.update f release layers) :
    layer ∈ layers ∨ ∃ old : Layer, old.release = release ∧ layer = f old := by
  induction layers with
  | nil => exact .inr ⟨{ release }, rfl, List.mem_singleton.mp member⟩
  | cons first layers ih =>
    rw [updateLayer.update] at member
    split at member
    next hit =>
      rcases List.mem_cons.mp member with same | later
      · exact .inr ⟨first, hit, same⟩
      · exact .inl (List.mem_cons_of_mem first later)
    next miss =>
      rcases List.mem_cons.mp member with rfl | later
      · exact .inl List.mem_cons_self
      · rcases ih later with old | made
        · exact .inl (List.mem_cons_of_mem first old)
        · exact .inr made

theorem update_distinct {f : Layer → Layer} {release : Int} {layers : List Layer}
    (keeps : ∀ layer, (f layer).release = layer.release)
    (distinct : layers.Pairwise fun a b => a.release ≠ b.release) :
    (updateLayer.update f release layers).Pairwise fun a b => a.release ≠ b.release := by
  induction layers with
  | nil => exact List.pairwise_singleton _ _
  | cons first layers ih =>
    obtain ⟨others, rest⟩ := List.pairwise_cons.mp distinct
    rw [updateLayer.update]
    split
    next hit =>
      refine .cons (fun layer member => ?_) rest
      rw [keeps]
      exact others layer member
    next miss =>
      refine .cons (fun layer member => ?_) (ih rest)
      rcases mem_update member with old | ⟨old, hit, rfl⟩
      · exact others layer old
      · rw [keeps, hit]
        exact miss

theorem update_layered {f : Layer → Layer} {release : Int} {layers : List Layer}
    (keeps : ∀ layer, (f layer).release = layer.release) (above : baseRelease ≤ release)
    (layered : Layered layers) : Layered (updateLayer.update f release layers) := by
  refine ⟨update_distinct keeps layered.distinct, ?_⟩
  intro layer member
  rcases mem_update member with old | ⟨old, hit, rfl⟩
  · exact layered.based layer old
  · rw [keeps, hit]
    exact above

theorem classAt?_update_add (layers : List Layer) (release release' : Int) (c : JavaClass)
    (name : String) :
    classAt? (updateLayer.update (·.add c) release layers) release' name =
      if release' = release ∧ name = c.name then some c else classAt? layers release' name := by
  induction layers with
  | nil =>
    by_cases hit : release = release'
    · simp [updateLayer.update, hit, classAt?, Layer.add, Layer.get?, eq_comm]
    · simp [updateLayer.update, Layer.add, hit, Ne.symm hit, classAt?]
  | cons layer layers ih =>
    rw [updateLayer.update]
    split
    next hit =>
      rw [classAt?_cons, classAt?_cons, Layer.get?_add]
      by_cases target : layer.release = release'
      · simp [Layer.add, target, ← hit]
      · have other : release' ≠ release := fun equal => target (hit.trans equal.symm)
        simp [Layer.add, target, other]
    next miss =>
      rw [classAt?_cons, classAt?_cons, ih]
      by_cases target : layer.release = release'
      · have other : release' ≠ release := fun equal => miss (target.trans equal)
        simp [target, other]
      · simp [target]

theorem classAt?_update_id (layers : List Layer) (release release' : Int) (name : String) :
    classAt? (updateLayer.update id release layers) release' name =
      classAt? layers release' name := by
  induction layers with
  | nil =>
    by_cases hit : release = release'
    · simp [updateLayer.update, hit, classAt?, Layer.get?]
    · simp [updateLayer.update, hit, classAt?]
  | cons layer layers ih =>
    rw [updateLayer.update]
    split
    · rfl
    · rw [classAt?_cons, classAt?_cons, ih]

theorem classAt?_eq_some_iff {layers : List Layer} {release : Int} {name : String} {c : JavaClass}
    (distinct : layers.Pairwise fun a b => a.release ≠ b.release) :
    classAt? layers release name = some c ↔
      ∃ layer ∈ layers, layer.release = release ∧ layer.get? name = some c := by
  induction layers with
  | nil => simp [classAt?]
  | cons first layers ih =>
    obtain ⟨others, rest⟩ := List.pairwise_cons.mp distinct
    rw [classAt?_cons]
    split
    next hit =>
      constructor
      · exact fun answer => ⟨first, List.mem_cons_self, hit, answer⟩
      · rintro ⟨layer, member, same, answer⟩
        rcases List.mem_cons.mp member with rfl | later
        · exact answer
        · exact absurd (hit.trans same.symm) (others layer later)
    next miss =>
      rw [ih rest]
      constructor
      · rintro ⟨layer, member, found⟩
        exact ⟨layer, List.mem_cons_of_mem first member, found⟩
      · rintro ⟨layer, member, same, answer⟩
        rcases List.mem_cons.mp member with rfl | later
        · exact absurd same miss
        · exact ⟨layer, later, same, answer⟩

theorem classAt?_eq_none_iff {layers : List Layer} {release : Int} {name : String}
    (distinct : layers.Pairwise fun a b => a.release ≠ b.release) :
    classAt? layers release name = none ↔
      ∀ layer ∈ layers, layer.release = release → layer.get? name = none := by
  rw [← not_iff_not, ← ne_eq, Option.ne_none_iff_exists']
  constructor
  · rintro ⟨c, answer⟩ silent
    obtain ⟨layer, member, same, found⟩ := (classAt?_eq_some_iff distinct).mp answer
    rw [silent layer member same] at found
    cases found
  · intro loud
    push Not at loud
    obtain ⟨layer, member, same, found⟩ := loud
    obtain ⟨c, answer⟩ := Option.ne_none_iff_exists'.mp found
    exact ⟨c, (classAt?_eq_some_iff distinct).mpr ⟨layer, member, same, answer⟩⟩

/-- Whether a layer of the release counts at the target. -/
def countsAt (target release : Int) : Bool := release ≤ target || release = baseRelease

/-- The releases ascend, and none lies below the base. -/
structure Ascending (layers : List Layer) : Prop where
  ascending : layers.Pairwise fun a b => a.release < b.release
  based : ∀ layer ∈ layers, baseRelease ≤ layer.release

section

variable {jar : Jar} {name : String} {target : Int} {c : JavaClass}

theorem Ascending.distinct (ascending : Ascending jar.layers) :
    jar.layers.Pairwise fun a b => a.release ≠ b.release :=
  ascending.ascending.imp fun below => Int.ne_of_lt below

/-- The walk that stops at the first layer above the target misses no layer that counts. -/
theorem Ascending.layersUpTo (ascending : Ascending jar.layers) :
    jar.layersUpTo target = jar.layers.filter fun layer => countsAt target layer.release := by
  apply takeWhile_eq_filter ascending.ascending
  intro x inside y _ below counts
  have above := ascending.based x inside
  simp only [Bool.or_eq_true, decide_eq_true_eq] at counts ⊢
  omega

theorem Ascending.effectiveClass?_eq_some_iff (ascending : Ascending jar.layers) :
    jar.effectiveClass? name target = some c ↔
      ∃ release, countsAt target release ∧ classAt? jar.layers release name = some c ∧
        ∀ higher, release < higher → countsAt target higher →
          classAt? jar.layers higher name = none := by
  have answers : jar.effectiveClass? name target =
      lastAnswer? (·.get? name) (jar.layersUpTo target) := rfl
  rw [answers, ascending.layersUpTo,
    lastAnswer?_eq_some_iff (ascending.ascending.sublist List.filter_sublist)
      (fun _ _ => Int.lt_asymm)]
  simp only [List.mem_filter, classAt?_eq_some_iff ascending.distinct,
    classAt?_eq_none_iff ascending.distinct]
  constructor
  · rintro ⟨layer, ⟨member, counts⟩, answer, last⟩
    refine ⟨layer.release, counts, ⟨layer, member, rfl, answer⟩, ?_⟩
    rintro higher above counts' other member' rfl
    exact last other ⟨member', counts'⟩ above
  · rintro ⟨release, counts, ⟨layer, member, rfl, answer⟩, last⟩
    refine ⟨layer, ⟨member, counts⟩, answer, ?_⟩
    rintro other ⟨member', counts'⟩ above
    exact last other.release above counts' other member' rfl

theorem Ascending.effectiveClass?_eq_none_iff (ascending : Ascending jar.layers) :
    jar.effectiveClass? name target = none ↔
      ∀ release, countsAt target release → classAt? jar.layers release name = none := by
  have answers : jar.effectiveClass? name target =
      lastAnswer? (·.get? name) (jar.layersUpTo target) := rfl
  rw [answers, ascending.layersUpTo, lastAnswer?_eq_none_iff]
  simp only [List.mem_filter, classAt?_eq_none_iff ascending.distinct]
  constructor
  · rintro silent release counts layer member rfl
    exact silent layer ⟨member, counts⟩
  · rintro silent layer ⟨member, counts⟩
    exact silent layer.release counts layer member rfl

theorem mem_init_layers {layer : Layer} (member : layer ∈ jar.init.layers) :
    layer ∈ updateLayer.update id baseRelease jar.layers :=
  (List.mergeSort_perm _ _).mem_iff.mp member

theorem init_layered (layered : Layered jar.layers) :
    Layered (updateLayer.update id baseRelease jar.layers) :=
  update_layered (fun _ => rfl) (le_refl baseRelease) layered

theorem init_ascending (layered : Layered jar.layers) :
    jar.init.layers.Pairwise fun a b => a.release < b.release :=
  mergeSort_ascending (init_layered layered).distinct

/-- The layers of a finished record ascend from the base. -/
theorem Layered.init (layered : Layered jar.layers) : Ascending jar.init.layers :=
  ⟨init_ascending layered, fun layer member =>
    (init_layered layered).based layer (mem_init_layers member)⟩

theorem classAt?_init (layered : Layered jar.layers) (release : Int) :
    classAt? jar.init.layers release name = classAt? jar.layers release name := by
  rw [← classAt?_update_id jar.layers baseRelease]
  apply Option.ext
  intro c
  rw [classAt?_eq_some_iff layered.init.distinct,
    classAt?_eq_some_iff (init_layered layered).distinct]
  constructor
  · rintro ⟨layer, member, found⟩
    exact ⟨layer, mem_init_layers member, found⟩
  · rintro ⟨layer, member, found⟩
    exact ⟨layer, (List.mergeSort_perm _ _).mem_iff.mpr member, found⟩

theorem init_effectiveClass?_eq_some_iff (layered : Layered jar.layers) :
    jar.init.effectiveClass? name target = some c ↔
      ∃ release, countsAt target release ∧ classAt? jar.layers release name = some c ∧
        ∀ higher, release < higher → countsAt target higher →
          classAt? jar.layers higher name = none := by
  simp only [← classAt?_init layered]
  exact layered.init.effectiveClass?_eq_some_iff

theorem init_effectiveClass?_eq_none_iff (layered : Layered jar.layers) :
    jar.init.effectiveClass? name target = none ↔
      ∀ release, countsAt target release → classAt? jar.layers release name = none := by
  simp only [← classAt?_init layered]
  exact layered.init.effectiveClass?_eq_none_iff

end

end Jar

end ClasspathAudit
