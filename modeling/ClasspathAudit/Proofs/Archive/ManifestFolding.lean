import ClasspathAudit.Archive.Manifest
import ClasspathAudit.Proofs.Text.Bytes
import ClasspathAudit.Proofs.Text.Utf8
import Mathlib.Data.List.TakeWhile

/-!
Attributes whose values are cut over several lines. A cut may fall anywhere, also inside a character:
the pieces are joined as they stand, but for the first one, which loses the blanks at its end before
the others come. A value is thus read back whole unless its first cut falls behind a blank.
-/

namespace ClasspathAudit.Archive.ManifestText

open Text

/-- The two ends of a line. -/
inductive LineEnd where
  | newline
  | returned
deriving DecidableEq, Repr

/-- What stands of a line end before its last byte. -/
def LineEnd.returns : LineEnd → List UInt8
  | .newline => []
  | .returned => [carriageReturn]

def terminated (content : List UInt8) (ending : LineEnd) : List UInt8 :=
  content ++ ending.returns ++ [10]

theorem byteLines_terminated {content : List UInt8} (plain : 10 ∉ content) (ending : LineEnd)
    (rest : List UInt8) :
    byteLines (terminated content ending ++ rest) = (content ++ ending.returns) :: byteLines rest := by
  have joined : terminated content ending ++ rest = (content ++ ending.returns) ++ 10 :: rest := by
    simp [terminated]
  rw [joined, byteLines_append]
  rw [List.mem_append, not_or]
  exact ⟨plain, by cases ending <;> decide⟩

theorem trimEnd_returns {content : List UInt8} (plain : carriageReturn ∉ content) (ending : LineEnd) :
    trimEnd (content ++ ending.returns) = content := by
  have kept : content.reverse.dropWhile (· = carriageReturn) = content.reverse := by
    rw [List.dropWhile_eq_self_iff]
    intro positive
    rw [decide_eq_true_eq]
    intro same
    exact plain (same ▸ List.mem_reverse.mp (List.getElem_mem positive))
  cases ending with
  | newline => rw [trimEnd, LineEnd.returns, List.append_nil, kept, List.reverse_reverse]
  | returned =>
    rw [trimEnd, LineEnd.returns, List.reverse_append, List.reverse_singleton, List.singleton_append,
      List.dropWhile_cons_of_pos (by decide), kept, List.reverse_reverse]

/-- An attribute with its value in pieces: the first one stands behind the name, and each other one on
a line of its own. -/
structure Folded where
  name : List UInt8
  first : List UInt8
  ending : LineEnd
  more : List (List UInt8 × LineEnd)

namespace Folded

/-- The pieces beyond the first one. -/
def continued (a : Folded) : List UInt8 := a.more.flatMap Prod.fst

def value (a : Folded) : List UInt8 := a.first ++ a.continued

def text (a : Folded) : List UInt8 :=
  terminated (a.name ++ colon :: space :: a.first) a.ending ++
    a.more.flatMap fun (piece, ending) => terminated (space :: piece) ending

/-- A name and a value that a manifest can hold. -/
structure Proper (a : Folded) : Prop where
  named : a.name ≠ []
  name_plain : colon ∉ a.name ∧ carriageReturn ∉ a.name ∧ 10 ∉ a.name
  name_trimmed : ¬ StartsBlank a.name ∧ ¬ EndsBlank a.name
  value_plain : carriageReturn ∉ a.value ∧ 10 ∉ a.value
  value_trimmed : ¬ StartsBlank a.value ∧ ¬ EndsBlank a.value

theorem proper_iff (a : Folded) : a.Proper ↔ a.name ≠ [] ∧
    (colon ∉ a.name ∧ carriageReturn ∉ a.name ∧ 10 ∉ a.name) ∧
    (¬ StartsBlank a.name ∧ ¬ EndsBlank a.name) ∧ (carriageReturn ∉ a.value ∧ 10 ∉ a.value) ∧
    ¬ StartsBlank a.value ∧ ¬ EndsBlank a.value :=
  ⟨fun ⟨named, plain, trimmed, plain', trimmed'⟩ => ⟨named, plain, trimmed, plain', trimmed'⟩,
    fun ⟨named, plain, trimmed, plain', trimmed'⟩ => ⟨named, plain, trimmed, plain', trimmed'⟩⟩

instance (a : Folded) : Decidable a.Proper := decidable_of_iff _ (proper_iff a).symm

/-- The first cut of the value falls behind a blank. -/
def CutBehindBlank (a : Folded) : Prop := a.more ≠ [] ∧ EndsBlank a.first

instance (a : Folded) : Decidable a.CutBehindBlank :=
  inferInstanceAs (Decidable (a.more ≠ [] ∧ EndsBlank a.first))

/-- What is read of the value. -/
def kept (a : Folded) : List UInt8 := trimmedEnd a.first ++ a.continued

/-- The lines of the attribute, without their ends. -/
def lines (a : Folded) : List (List UInt8) :=
  (a.name ++ colon :: space :: a.first ++ a.ending.returns) ::
    a.more.map fun (piece, ending) => space :: piece ++ ending.returns

variable {a : Folded}

theorem Proper.first_plain (proper : a.Proper) : carriageReturn ∉ a.first ∧ 10 ∉ a.first :=
  ⟨fun member => proper.value_plain.1 (List.mem_append_left _ member),
    fun member => proper.value_plain.2 (List.mem_append_left _ member)⟩

theorem Proper.piece_plain (proper : a.Proper) {piece : List UInt8} {ending : LineEnd}
    (member : (piece, ending) ∈ a.more) : carriageReturn ∉ piece ∧ 10 ∉ piece := by
  have inside : ∀ b ∈ piece, b ∈ a.value := fun b here =>
    List.mem_append_right _ (List.mem_flatMap.mpr ⟨_, member, here⟩)
  exact ⟨fun here => proper.value_plain.1 (inside _ here),
    fun here => proper.value_plain.2 (inside _ here)⟩

theorem Proper.first_not_startsBlank (proper : a.Proper) : ¬ StartsBlank a.first := by
  rintro ⟨mark, listed, start⟩
  exact proper.value_trimmed.1 ⟨mark, listed, start.trans (List.prefix_append _ _)⟩

theorem kept_eq_value_iff (proper : a.Proper) : a.kept = a.value ↔ ¬ a.CutBehindBlank := by
  rw [kept, value, List.append_cancel_right_eq, trimmedEnd_eq_self_iff, CutBehindBlank, not_and]
  refine ⟨fun plain _ => plain, fun plain ends => ?_⟩
  by_cases single : a.more = []
  · have whole : a.value = a.first := by simp [value, continued, single]
    exact proper.value_trimmed.2 (whole ▸ ends)
  · exact plain single ends

theorem byteLines_text (proper : a.Proper) (rest : List UInt8) :
    byteLines (a.text ++ rest) = a.lines ++ byteLines rest := by
  have header : 10 ∉ a.name ++ colon :: space :: a.first := by
    simp only [List.mem_append, List.mem_cons, not_or]
    exact ⟨proper.name_plain.2.2, by decide, by decide, proper.first_plain.2⟩
  have pieces : ∀ more ⊆ a.more,
      byteLines ((more.flatMap fun (piece, ending) => terminated (space :: piece) ending) ++ rest) =
        (more.map fun (piece, ending) => space :: piece ++ ending.returns) ++ byteLines rest := by
    intro more inside
    induction more with
    | nil => rfl
    | cons pair more ih =>
      obtain ⟨piece, ending⟩ := pair
      have plain : 10 ∉ space :: piece := by
        rw [List.mem_cons, not_or]
        exact ⟨by decide, (proper.piece_plain (inside List.mem_cons_self)).2⟩
      rw [List.flatMap_cons, List.append_assoc, byteLines_terminated plain,
        ih fun _ member => inside (List.mem_cons_of_mem _ member)]
      rfl
  rw [text, List.append_assoc, byteLines_terminated header, pieces _ (List.Subset.refl _)]
  rfl

end Folded

section

variable {attributes : Attributes} {name : List UInt8}

theorem update_new (new : name ∉ attributes.map Prod.fst) (change : List UInt8 → List UInt8) :
    update attributes name change = attributes ++ [(name, change [])] := by
  have absent : attributes.any (·.1 = name) = false := by
    rw [List.any_eq_false]
    intro pair member same
    rw [decide_eq_true_eq] at same
    exact new (same ▸ List.mem_map_of_mem member)
  rw [update, if_neg (by simp [absent])]

theorem update_last (new : name ∉ attributes.map Prod.fst) (value : List UInt8)
    (change : List UInt8 → List UInt8) :
    update (attributes ++ [(name, value)]) name change = attributes ++ [(name, change value)] := by
  have others : attributes.map (fun pair => if pair.1 = name then (pair.1, change pair.2) else pair) =
      attributes := by
    conv_rhs => rw [← List.map_id attributes]
    refine List.map_congr_left fun pair member => ?_
    have other : pair.1 ≠ name := fun same => new (same ▸ List.mem_map_of_mem member)
    exact if_neg other
  rw [update, if_pos (by simp), List.map_append]
  refine congrArg₂ (· ++ ·) others ?_
  simp

/-- The line of a name sets the value of the name. -/
theorem readLines_header {a : Folded} (proper : a.Proper) (rest : List (List UInt8))
    (last : List UInt8) :
    readLines ((a.name ++ colon :: space :: a.first ++ a.ending.returns) :: rest) last attributes =
      readLines rest a.name (update attributes a.name fun _ => trimmedEnd a.first) := by
  have plain : carriageReturn ∉ a.name ++ colon :: space :: a.first := by
    simp only [List.mem_append, List.mem_cons, not_or]
    exact ⟨proper.name_plain.2.1, by decide, by decide, proper.first_plain.1⟩
  have cut : (a.name ++ colon :: space :: a.first).takeWhile (· ≠ colon) = a.name := by
    rw [List.takeWhile_append_of_pos, List.takeWhile_cons_of_neg (by simp), List.append_nil]
    intro b member
    rw [decide_eq_true_eq]
    rintro rfl
    exact proper.name_plain.1 member
  have behind : (a.name ++ colon :: space :: a.first).drop a.name.length =
      colon :: space :: a.first := List.drop_left
  have trimmed : trimBytes a.name = a.name :=
    trimBytes_eq_self proper.name_trimmed.1 proper.name_trimmed.2
  have value : trimBytes (space :: a.first) = trimmedEnd a.first := by
    rw [space, trimBytes_space, trimBytes_of_not_startsBlank proper.first_not_startsBlank]
  obtain ⟨b, more, name⟩ := List.exists_cons_of_ne_nil proper.named
  have started : b ≠ space := by
    rintro rfl
    refine proper.name_trimmed.1 ⟨[space], by decide +kernel, ?_⟩
    rw [name]
    exact List.cons_prefix_cons.mpr ⟨rfl, List.nil_prefix⟩
  rw [name] at cut behind plain trimmed
  rw [readLines, name, trimEnd_returns plain]
  rw [List.cons_append] at cut behind ⊢
  simp only [if_neg started, cut, behind, trimmed, value, List.isEmpty_cons, Bool.false_eq_true,
    if_false]

theorem readLines_continuation {piece : List UInt8} (solid : name ≠ []) (plain : carriageReturn ∉ piece)
    (ending : LineEnd) (rest : List (List UInt8)) :
    readLines ((space :: piece ++ ending.returns) :: rest) name attributes =
      readLines rest name (update attributes name (· ++ piece)) := by
  have trimmed : trimEnd (space :: piece ++ ending.returns) = space :: piece := by
    refine trimEnd_returns ?_ ending
    rw [List.mem_cons, not_or]
    exact ⟨by decide, plain⟩
  rw [readLines, trimmed]
  simp [solid]

theorem readLines_pieces {more : List (List UInt8 × LineEnd)} (solid : name ≠ [])
    (new : name ∉ attributes.map Prod.fst) (plain : ∀ pair ∈ more, carriageReturn ∉ pair.1)
    (value : List UInt8) (rest : List (List UInt8)) :
    readLines ((more.map fun (piece, ending) => space :: piece ++ ending.returns) ++ rest) name
        (attributes ++ [(name, value)]) =
      readLines rest name (attributes ++ [(name, value ++ more.flatMap Prod.fst)]) := by
  induction more generalizing value with
  | nil => simp
  | cons pair more ih =>
    obtain ⟨piece, ending⟩ := pair
    obtain ⟨first, later⟩ := List.forall_mem_cons.mp plain
    rw [List.map_cons, List.cons_append, readLines_continuation solid first, update_last new,
      ih later, List.flatMap_cons, List.append_assoc]

/-- The lines of an attribute add it with the value that is kept of it. -/
theorem readLines_lines {a : Folded} (proper : a.Proper) (new : a.name ∉ attributes.map Prod.fst)
    (last : List UInt8) (rest : List (List UInt8)) :
    readLines (a.lines ++ rest) last attributes =
      readLines rest a.name (attributes ++ [(a.name, a.kept)]) := by
  rw [Folded.lines, List.cons_append, readLines_header proper, update_new new,
    readLines_pieces proper.named new fun pair member => (proper.piece_plain member).1]
  rfl

/-- An empty line ends the section. -/
theorem readLines_blank (ending : LineEnd) (rest : List (List UInt8)) (last : List UInt8) :
    readLines (ending.returns :: rest) last attributes = attributes := by
  have blank : trimEnd ([] ++ ending.returns) = [] := trimEnd_returns List.not_mem_nil ending
  rw [List.nil_append] at blank
  rw [readLines, blank]

theorem readLines_attributes {folded : List Folded} (proper : ∀ a ∈ folded, a.Proper)
    (distinct : (attributes.map Prod.fst ++ folded.map Folded.name).Nodup) (last : List UInt8)
    (blank : LineEnd) (rest : List (List UInt8)) :
    readLines (folded.flatMap Folded.lines ++ blank.returns :: rest) last attributes =
      attributes ++ folded.map fun a => (a.name, a.kept) := by
  induction folded generalizing attributes last with
  | nil => rw [List.flatMap_nil, List.nil_append, readLines_blank, List.map_nil, List.append_nil]
  | cons a folded ih =>
    obtain ⟨first, later⟩ := List.forall_mem_cons.mp proper
    have new : a.name ∉ attributes.map Prod.fst := fun member =>
      (List.nodup_append.mp distinct).2.2 _ member _ List.mem_cons_self rfl
    have distinct' : ((attributes ++ [(a.name, a.kept)]).map Prod.fst ++
        folded.map Folded.name).Nodup := by
      simpa using distinct
    rw [List.flatMap_cons, List.append_assoc, readLines_lines first new, ih later distinct',
      List.append_assoc]
    rfl

end

/-- The text of the attributes, the empty line behind them and whatever follows it. -/
def sectionText (folded : List Folded) (blank : LineEnd) (further : List UInt8) : List UInt8 :=
  folded.flatMap Folded.text ++ terminated [] blank ++ further

theorem byteLines_section {folded : List Folded} (proper : ∀ a ∈ folded, a.Proper) (rest : List UInt8) :
    byteLines (folded.flatMap Folded.text ++ rest) =
      folded.flatMap Folded.lines ++ byteLines rest := by
  induction folded with
  | nil => rfl
  | cons a folded ih =>
    obtain ⟨first, later⟩ := List.forall_mem_cons.mp proper
    rw [List.flatMap_cons, List.append_assoc, Folded.byteLines_text first, ih later,
      List.flatMap_cons, List.append_assoc]

theorem parseBytes_section {folded : List Folded} (proper : ∀ a ∈ folded, a.Proper)
    (distinct : (folded.map Folded.name).Nodup) (blank : LineEnd) (further : List UInt8) :
    parseBytes (sectionText folded blank further) = folded.map fun a => (a.name, a.kept) := by
  have fresh : (([] : Attributes).map Prod.fst ++ folded.map Folded.name).Nodup := distinct
  rw [parseBytes, sectionText, List.append_assoc, byteLines_section proper,
    byteLines_terminated List.not_mem_nil, List.nil_append, readLines_attributes proper fresh,
    List.nil_append]

/-- What is read of folded attributes: every value in one, less the blanks before its first cut. With
no cut behind a blank, names and values come back as they are. -/
structure Unfolded (folded : List Folded) (bytes : List UInt8) : Prop where
  joined : parseBytes bytes = folded.map fun a => (a.name, trimmedEnd a.first ++ a.continued)
  whole : (parseBytes bytes = folded.map fun a => (a.name, a.value)) ↔ ∀ a ∈ folded, ¬ a.CutBehindBlank
  texts : (∀ a ∈ folded, ¬ a.CutBehindBlank) → ∀ manifest : Manifest,
    (folded.map fun a => (a.name, a.value)) =
      manifest.map (fun (name, value) => (encodeUtf8 name, encodeUtf8 value)) →
    parse bytes = manifest

/-- Cutting values over lines changes nothing exactly where no first cut falls behind a blank. -/
theorem parse_folded (folded : List Folded) (blank : LineEnd) (further : List UInt8)
    (proper : ∀ a ∈ folded, a.Proper) (distinct : (folded.map Folded.name).Nodup) :
    Unfolded folded (sectionText folded blank further) := by
  have joined := parseBytes_section proper distinct blank further
  have whole : (parseBytes (sectionText folded blank further) = folded.map fun a => (a.name, a.value)) ↔
      ∀ a ∈ folded, ¬ a.CutBehindBlank := by
    rw [joined, List.map_inj_left]
    refine forall₂_congr fun a member => ?_
    rw [Prod.mk.injEq, Folded.kept_eq_value_iff (proper a member)]
    exact and_iff_right rfl
  refine ⟨joined, whole, ?_⟩
  intro uncut manifest encoded
  rw [parse, whole.mpr uncut, encoded, List.map_map]
  conv_rhs => rw [← List.map_id manifest]
  refine List.map_congr_left fun pair _ => ?_
  simp only [Function.comp_apply, decodeUtf8_encodeUtf8, id_eq]

/-- A class path cut inside a word and inside a character, on lines that end in different ways. -/
theorem parse_folded_classPath :
    let folded : List Folded :=
      [⟨encodeUtf8 "Multi-Release", encodeUtf8 "true", .newline, []⟩,
        ⟨encodeUtf8 "Class-Path", encodeUtf8 "lib/a.j", .returned,
          [(encodeUtf8 "ar caf" ++ [0xC3], .newline), ([0xA9] ++ encodeUtf8 " b.jar", .returned)]⟩]
    (∀ a ∈ folded, a.Proper) ∧ (folded.map Folded.name).Nodup ∧
      parse (sectionText folded .returned (encodeUtf8 "Name: a/\n")) =
        [("Multi-Release", "true"), ("Class-Path", "lib/a.jar café b.jar")] := by
  intro folded
  have proper : ∀ a ∈ folded, a.Proper := by decide +kernel
  have distinct : (folded.map Folded.name).Nodup := by decide +kernel
  have uncut : ∀ a ∈ folded, ¬ a.CutBehindBlank := by decide +kernel
  exact ⟨proper, distinct, (parse_folded folded .returned (encodeUtf8 "Name: a/\n") proper
    distinct).texts uncut _ (by decide +kernel)⟩

/-- The blank between two archives of a class path is lost where the line ends behind it. -/
theorem folding_not_transparent : ¬ ∀ (folded : List Folded) (blank : LineEnd) (further : List UInt8),
    (∀ a ∈ folded, a.Proper) → (∀ a ∈ folded, ∀ pair ∈ a.more, pair.1 ≠ []) →
    (folded.map Folded.name).Nodup →
    parseBytes (sectionText folded blank further) = folded.map fun a => (a.name, a.value) := by
  intro transparent
  have whole := transparent [⟨encodeUtf8 "Class-Path", encodeUtf8 "lib/a.jar ", .returned,
    [(encodeUtf8 "lib/b.jar", .returned)]⟩] .returned [] (by decide +kernel) (by decide +kernel)
    (by decide +kernel)
  revert whole
  decide +kernel

end ClasspathAudit.Archive.ManifestText
