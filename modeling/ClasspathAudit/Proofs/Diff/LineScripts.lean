import ClasspathAudit.Proofs.Diff.Rows
import ClasspathAudit.Proofs.Text.Split

/-!
The line difference of two texts as an edit script. The search for the longest common block looks only at
some of the lines and may take any block of them; all that matters is that what it takes stands in both
lists. From that, each text comes back whole: the old one from the lines that are kept or deleted, the new
one from those that are kept or inserted.
-/

namespace ClasspathAudit

namespace LineDiff

/-- Lines that lead from one list of texts to another. -/
inductive Script : (old new : List String) → List MarkedLine → Prop where
  | nil : Script [] [] []
  | kept {old new lines} (text : String) :
      Script old new lines → Script (text :: old) (text :: new) (⟨.kept, text⟩ :: lines)
  | deleted {old new lines} (text : String) :
      Script old new lines → Script (text :: old) new (⟨.deleted, text⟩ :: lines)
  | inserted {old new lines} (text : String) :
      Script old new lines → Script old (text :: new) (⟨.inserted, text⟩ :: lines)

/-- The texts of the lines with one of the given marks. -/
def textsMarked (marks : List LineMark) (lines : List MarkedLine) : List String :=
  (lines.filter fun line => line.mark ∈ marks).map MarkedLine.text

@[simp]
theorem textsMarked_cons (marks : List LineMark) (line : MarkedLine) (lines : List MarkedLine) :
    textsMarked marks (line :: lines) =
      if line.mark ∈ marks then line.text :: textsMarked marks lines else textsMarked marks lines := by
  by_cases counts : line.mark ∈ marks
  · simp [textsMarked, counts]
  · simp [textsMarked, counts]

namespace Script

variable {old new old' new' : List String} {lines lines' : List MarkedLine}

/-- What the old text had is kept or deleted. -/
theorem old_eq (script : Script old new lines) : textsMarked [.kept, .deleted] lines = old := by
  induction script with
  | nil => rfl
  | kept text _ ih => simp [ih]
  | deleted text _ ih => simp [ih]
  | inserted text _ ih =>
    have other : LineMark.inserted ∉ [LineMark.kept, LineMark.deleted] := by decide
    rw [textsMarked_cons, if_neg other, ih]

/-- What the new text has is kept or inserted. -/
theorem new_eq (script : Script old new lines) : textsMarked [.kept, .inserted] lines = new := by
  induction script with
  | nil => rfl
  | kept text _ ih => simp [ih]
  | inserted text _ ih => simp [ih]
  | deleted text _ ih =>
    have other : LineMark.deleted ∉ [LineMark.kept, LineMark.inserted] := by decide
    rw [textsMarked_cons, if_neg other, ih]

theorem append (first : Script old new lines) (second : Script old' new' lines') :
    Script (old ++ old') (new ++ new') (lines ++ lines') := by
  induction first with
  | nil => exact second
  | kept text _ ih => exact .kept text ih
  | deleted text _ ih => exact .deleted text ih
  | inserted text _ ih => exact .inserted text ih

theorem allKept (texts : List String) : Script texts texts (marked .kept texts) := by
  induction texts with
  | nil => exact .nil
  | cons text texts ih => exact .kept text ih

theorem replaced (old new : List String) :
    Script old new (marked .deleted old ++ marked .inserted new) := by
  induction old with
  | cons text old ih => exact .deleted text ih
  | nil =>
    induction new with
    | nil => exact .nil
    | cons text new ih => exact .inserted text ih

/-- The inverted lines lead back. -/
theorem inverse (script : Script old new lines) : Script new old (lines.map MarkedLine.inverse) := by
  induction script with
  | nil => exact .nil
  | kept text _ ih => exact .kept text ih
  | deleted text _ ih => exact .inserted text ih
  | inserted text _ ih => exact .deleted text ih

end Script

/-- Two lists end with the same `count` lines. -/
def EndAlike (left right : List String) (count : Nat) : Prop :=
  ∃ common, common.length = count ∧ common <:+ left ∧ common <:+ right

/-- A block of lines stands in both lists, at its places. -/
def Shared (left right : List String) (block : Block) : Prop :=
  ∃ front front' common back back', left = front ++ common ++ back ∧ right = front' ++ common ++ back' ∧
    block = ⟨front.length, front'.length, common.length⟩

section

variable {left right : List String} {count : Nat}

theorem EndAlike.zero (left right : List String) : EndAlike left right 0 :=
  ⟨[], rfl, List.nil_suffix, List.nil_suffix⟩

theorem EndAlike.concat (alike : EndAlike left right count) (line : String) :
    EndAlike (left ++ [line]) (right ++ [line]) (count + 1) := by
  obtain ⟨common, length, ⟨front, rfl⟩, ⟨front', rfl⟩⟩ := alike
  refine ⟨common ++ [line], by simp [length], ⟨front, ?_⟩, ⟨front', ?_⟩⟩
  · rw [List.append_assoc]
  · rw [List.append_assoc]

/-- Where two fronts end alike, a block ends. -/
theorem EndAlike.shared (alike : EndAlike left right count) (back back' : List String) :
    Shared (left ++ back) (right ++ back') ⟨left.length - count, right.length - count, count⟩ := by
  obtain ⟨common, rfl, ⟨front, rfl⟩, ⟨front', rfl⟩⟩ := alike
  refine ⟨front, front', common, back, back', rfl, rfl, ?_⟩
  simp

theorem commonLength_spec (left right : List String) :
    ∃ common, common.length = commonLength left right ∧ common <+: left ∧ common <+: right := by
  fun_induction commonLength left right with
  | case1 left line right ih =>
    obtain ⟨common, length, inLeft, inRight⟩ := ih
    exact ⟨line :: common, by rw [List.length_cons, length], (List.prefix_cons_inj line).mpr inLeft,
      (List.prefix_cons_inj line).mpr inRight⟩
  | case2 => exact ⟨[], rfl, List.nil_prefix, List.nil_prefix⟩
  | case3 => exact ⟨[], rfl, List.nil_prefix, List.nil_prefix⟩

/-- Two lists end alike as far as their reversals begin alike. -/
theorem commonLength_reverse (left right : List String) :
    EndAlike left right (commonLength left.reverse right.reverse) := by
  obtain ⟨common, length, inLeft, inRight⟩ := commonLength_spec left.reverse right.reverse
  refine ⟨common.reverse, by rw [List.length_reverse, length], ?_, ?_⟩
  · rw [← List.reverse_prefix, List.reverse_reverse]
    exact inLeft
  · rw [← List.reverse_prefix, List.reverse_reverse]
    exact inRight

/-- What stands in front of a part of a list, and what stands behind it. -/
theorem cut_around {α : Type} (front part back : List α) :
    (front ++ part ++ back).take front.length = front ∧
      (front ++ part ++ back).drop (front.length + part.length) = back := by
  constructor
  · rw [List.append_assoc, List.take_left]
  · rw [← List.length_append, List.drop_left]

theorem extend_eq (front front' common back back' : List String) :
    extend (front ++ common ++ back) (front' ++ common ++ back')
        ⟨front.length, front'.length, common.length⟩ =
      ⟨front.length - commonLength front.reverse front'.reverse,
        front'.length - commonLength front.reverse front'.reverse,
        commonLength front.reverse front'.reverse + common.length + commonLength back back'⟩ := by
  simp only [extend, (cut_around _ common _).1, (cut_around _ common _).2]

/-- A block grows over the lines on both of its sides that agree. -/
theorem Shared.extend {block : Block} (shared : Shared left right block) :
    Shared left right (extend left right block) := by
  obtain ⟨front, front', common, back, back', rfl, rfl, rfl⟩ := shared
  rw [extend_eq]
  obtain ⟨before, length, ⟨rest, same⟩, ⟨rest', same'⟩⟩ := commonLength_reverse front front'
  obtain ⟨after, length', ⟨tail, rfl⟩, ⟨tail', rfl⟩⟩ := commonLength_spec back back'
  rw [← length, ← length', ← same, ← same']
  refine ⟨rest, rest', before ++ common ++ after, tail, tail', ?_, ?_, ?_⟩
  · simp only [List.append_assoc]
  · simp only [List.append_assoc]
  · simp only [List.length_append, Nat.add_sub_cancel]

/-- For every place in a list, the length of a run that ends in front of it and with the lines that were
passed in the other list. -/
def Fronts (passed before right : List String) (runs : List Nat) : Prop :=
  ∀ place, EndAlike passed (before ++ right.take place) (runs[place]?.getD 0)

theorem Fronts.start (right : List String) : Fronts [] [] right [0] := by
  intro place
  cases place <;> exact .zero _ _

/-- One more line passed: each run goes on where the two lines agree and ends where they do not. -/
theorem Fronts.extendRuns {passed before : List String} {runs : List Nat}
    (fronts : Fronts passed before right runs) (ignored : List String) (line : String) :
    Fronts (passed ++ [line]) before right (0 :: extendRuns ignored line right runs) := by
  intro place
  induction right generalizing before runs place with
  | nil => cases place <;> exact .zero _ _
  | cons other right ih =>
    cases place with
    | zero => exact .zero _ _
    | succ place =>
      cases place with
      | zero =>
        have reached : EndAlike passed before (runs.headD 0) := by
          simpa [List.head?_eq_getElem?] using fronts 0
        have first : EndAlike (passed ++ [line]) (before ++ [other])
            (if line = other ∧ ¬ ignored.contains line then runs.headD 0 + 1 else 0) := by
          split
          next agree =>
            rw [← agree.1]
            exact reached.concat line
          next => exact .zero _ _
        exact first
      | succ place =>
        have fronts' : Fronts passed (before ++ [other]) right runs.tail := by
          intro place
          have later := fronts (place + 1)
          simpa using later
        have later := ih fronts' (place + 1)
        simpa [LineDiff.extendRuns] using later

theorem length_extendRuns (ignored : List String) (line : String) (right : List String)
    (runs : List Nat) : (extendRuns ignored line right runs).length = right.length := by
  induction right generalizing runs with
  | nil => rfl
  | cons other right ih => rw [LineDiff.extendRuns, List.length_cons, ih, List.length_cons]

/-- The longest of the runs that end with a line is a block of both lists. -/
theorem better_shared {passed back before : List String} {line : String} {runs : List Nat} {best : Block}
    (fronts : Fronts (passed ++ [line]) before right (0 :: runs)) (aligned : runs.length = right.length)
    (shared : Shared (passed ++ line :: back) (before ++ right) best) :
    Shared (passed ++ line :: back) (before ++ right)
      (better passed.length before.length runs best) := by
  induction runs generalizing before right best with
  | nil => exact shared
  | cons run runs ih =>
    obtain ⟨other, right, rfl⟩ := List.exists_cons_of_length_eq_add_one aligned.symm
    have here : EndAlike (passed ++ [line]) (before ++ [other]) run := fronts 1
    have block : Shared (passed ++ line :: back) (before ++ other :: right)
        ⟨passed.length + 1 - run, before.length + 1 - run, run⟩ := by
      simpa using here.shared back right
    have later : Fronts (passed ++ [line]) (before ++ [other]) right (0 :: runs) := by
      intro place
      cases place with
      | zero => exact .zero _ _
      | succ place => simpa using fronts (place + 2)
    have chosen : Shared (passed ++ line :: back) (before ++ other :: right)
        (if best.size < run then ⟨passed.length + 1 - run, before.length + 1 - run, run⟩ else best) := by
      split
      · exact block
      · exact shared
    rw [better]
    simpa using ih later (Nat.succ.inj aligned) (by simpa using chosen)

/-- The search through the lines of the left list, with the runs up to those that were passed. -/
theorem longestFrom_shared {passed rest : List String} {runs : List Nat} {best : Block}
    (fronts : Fronts passed [] right (0 :: runs)) (ignored : List String)
    (shared : Shared (passed ++ rest) right best) :
    Shared (passed ++ rest) right (longestFrom ignored right passed.length rest runs best) := by
  induction rest generalizing passed runs best with
  | nil => exact shared
  | cons line rest ih =>
    have extended := fronts.extendRuns ignored line
    have found := better_shared extended (length_extendRuns ignored line right (0 :: runs)) shared
    have onward := ih extended (by simpa using found)
    rw [longestFrom]
    simpa using onward

/-- Whatever lines are ignored, the block that is found stands in both lists. -/
theorem longest_shared (ignored left right : List String) :
    Shared left right (longest ignored left right) := by
  have nothing : Shared left right ⟨0, 0, 0⟩ := ⟨[], [], [], left, right, rfl, rfl, rfl⟩
  exact (longestFrom_shared (Fronts.start right) ignored nothing).extend

/-- The comparison leads from the left list to the right one. -/
theorem compareWith_script (ignored left right : List String) :
    Script left right (compareWith ignored left right) := by
  fun_induction compareWith ignored left right with
  | case1 left right block kept first last =>
    obtain ⟨front, front', common, back, back', rfl, rfl, found⟩ := longest_shared ignored left right
    have same : block = ⟨front.length, front'.length, common.length⟩ := found
    have between : ((front ++ common ++ back).drop front.length).take common.length = common := by
      rw [List.append_assoc, List.drop_left, List.take_left]
    rw [same, (cut_around front common back).1, (cut_around front' common back').1] at first
    rw [same, (cut_around front common back).2, (cut_around front' common back').2] at last
    rw [same, (cut_around front common back).1, (cut_around front' common back').1,
      (cut_around front common back).2, (cut_around front' common back').2, between]
    exact (first.append (.allKept common)).append last
  | case2 left right block none => exact .replaced left right

end

/-- What stands between the newlines of a text. -/
def linesOf (text : String) : List String := (text.toList.splitOn '\n').map String.ofList

/-- The comparison of two texts leads from the lines of the one to those of the other. -/
theorem compare_script (before after : String) :
    Script (linesOf before) (linesOf after) (compare before after) := by
  have split (text : String) : Text.splitOnChar '\n' text = linesOf text := by
    rw [Text.splitOnChar, Text.splitAll_eq_splitOn, linesOf]
  rw [compare, split, split]
  exact compareWith_script _ _ _

end LineDiff

namespace RowDiff

open LineDiff

/-- The cells of two rows that have their lines listed are compared line by line. -/
theorem mem_cellDiffs_ofPair {columns : Nat} {old new : Row} {cell : Option CellDiff}
    (member : cell ∈ (ofPair columns old new).cellDiffs) :
    ∃ column : Nat, cell =
      some ⟨column, some (LineDiff.compare (old.cell column).text (new.cell column).text)⟩ := by
  obtain ⟨diff, listed, rfl⟩ := List.mem_map.mp member
  obtain ⟨column, -, found⟩ := List.mem_filterMap.mp listed
  rw [linesOf?] at found
  split at found
  · exact ⟨column, found.symm⟩
  · cases found

theorem getElem?_inverse {d : RowDiff} {place : Nat} {column : Int} {lines : List MarkedLine}
    (listed : d.cellDiffs[place]? = some (some ⟨column, some lines⟩)) :
    d.inverse.cellDiffs[place]? = some (some ⟨column, some (lines.map MarkedLine.inverse)⟩) := by
  rw [inverse, List.getElem?_map, listed]
  rfl

/-- The lines of a cell are an edit script: those kept or deleted are the lines of the old text, those
kept or inserted are the lines of the new one, and the inverted difference leads back. -/
theorem line_scripts :
    (∀ before after : String,
      textsMarked [.kept, .deleted] (LineDiff.compare before after) = linesOf before ∧
      textsMarked [.kept, .inserted] (LineDiff.compare before after) = linesOf after ∧
      Script (linesOf before) (linesOf after) (LineDiff.compare before after)) ∧
    (∀ (columns : Nat) (old new : Row), ∀ cell ∈ (ofPair columns old new).cellDiffs,
      ∃ column : Nat,
        cell = some ⟨column, some (LineDiff.compare (old.cell column).text (new.cell column).text)⟩) ∧
    ∀ (d : RowDiff) (place : Nat) (column : Int) (lines : List MarkedLine) (old new : List String),
      d.cellDiffs[place]? = some (some ⟨column, some lines⟩) → Script old new lines →
        d.inverse.cellDiffs[place]? =
          some (some ⟨column, some (lines.map MarkedLine.inverse)⟩) ∧
        Script new old (lines.map MarkedLine.inverse) := by
  refine ⟨?_, ?_, ?_⟩
  · intro before after
    have script := compare_script before after
    exact ⟨script.old_eq, script.new_eq, script⟩
  · intro columns old new cell member
    exact mem_cellDiffs_ofPair member
  · intro d place column lines old new listed script
    exact ⟨getElem?_inverse listed, script.inverse⟩

theorem line_scripts_note :
    let old : Row := ⟨"k", .info, some [.string "a\nb"]⟩
    let new : Row := ⟨"k", .info, some [.string "a\nc"]⟩
    let lines := LineDiff.compare "a\nb" "a\nc"
    (ofPair 1 old new).cellDiffs = [some ⟨0, some lines⟩] ∧
      (∃ column : Nat, some (⟨0, some lines⟩ : CellDiff) =
        some ⟨column, some (LineDiff.compare (old.cell column).text (new.cell column).text)⟩) ∧
      Script ["a", "b"] ["a", "c"] lines ∧
      (ofPair 1 old new).inverse.cellDiffs[0]? =
        some (some ⟨0, some (lines.map MarkedLine.inverse)⟩) ∧
      Script ["a", "c"] ["a", "b"] (lines.map MarkedLine.inverse) := by
  intro old new lines
  have broken : "a\nb".contains '\n' = true := by simp [String.contains_char_eq]
  have differing : differingColumns old new 1 = [0] := by decide +kernel
  have found : linesOf? old new 0 = some ⟨0, some lines⟩ := by
    rw [linesOf?, show (old.cell 0).text = "a\nb" from rfl, broken]
    rfl
  have listed : (ofPair 1 old new).cellDiffs = [some ⟨0, some lines⟩] := by
    simp [ofPair, differing, found]
  have script : Script ["a", "b"] ["a", "c"] lines := (line_scripts.1 "a\nb" "a\nc").2.2
  have first : (ofPair 1 old new).cellDiffs[0]? = some (some ⟨0, some lines⟩) := by rw [listed]; rfl
  have back := line_scripts.2.2 (ofPair 1 old new) 0 0 lines _ _ first script
  exact ⟨listed, line_scripts.2.1 1 old new _ (listed ▸ List.mem_singleton_self _), script, back.1, back.2⟩

end RowDiff

end ClasspathAudit
