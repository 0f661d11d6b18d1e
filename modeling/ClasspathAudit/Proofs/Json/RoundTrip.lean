import ClasspathAudit.Proofs.Json.Literals

/-!
JSON documents as they are written, indented, read back. The layout is followed line by line: every item
of an array and every field of an object stands on a line of its own, behind a margin that is passed
over.
-/

namespace ClasspathAudit.Json

open Text

/-- A text of white space only. -/
def IsMargin (cs : List Char) : Prop := ∀ c ∈ cs, isSpace c = true

theorem skipSpace_margin {margin : List Char} (blank : IsMargin margin) (rest : List Char) :
    skipSpace (margin ++ rest) = skipSpace rest := by
  rw [skipSpace, List.dropWhile_append_of_pos blank, skipSpace]

theorem skipSpace_cons {c : Char} (visible : isSpace c = false) (rest : List Char) :
    skipSpace (c :: rest) = c :: rest := by
  simp [skipSpace, visible]

/-- White space and then a character that is none. -/
theorem skipSpace_front {margin : List Char} (blank : IsMargin margin) {c : Char}
    (visible : isSpace c = false) (rest : List Char) : skipSpace (margin ++ c :: rest) = c :: rest := by
  rw [skipSpace_margin blank, skipSpace_cons visible]

/-- A document of integers, texts and truth values that is nested at most `depth` levels deep. -/
def Shallow : Nat → Json → Prop
  | _, null | _, bool _ | _, string _ => True
  | _, number literal => ∃ n : Int, literal = toString n
  | 0, array _ | 0, object _ => False
  | depth + 1, array items => ∀ item ∈ items, Shallow depth item
  | depth + 1, object fields => ∀ field ∈ fields, Shallow depth field.2

/-- What holds of documents without items, and passes from items to what holds them, holds of every
document at every depth. -/
theorem shallow_induction {motive : Nat → Json → Prop}
    (plain : ∀ depth document, Shallow 0 document → motive depth document)
    (array : ∀ depth items, (∀ item ∈ items, motive depth item) → motive (depth + 1) (.array items))
    (object : ∀ depth fields, (∀ field ∈ fields, motive depth field.2) →
      motive (depth + 1) (.object fields))
    {depth : Nat} {document : Json} (shallow : Shallow depth document) : motive depth document := by
  induction depth generalizing document with
  | zero => exact plain 0 document shallow
  | succ depth ih =>
    cases document with
    | array items => exact array depth items fun item member => ih (shallow item member)
    | object fields => exact object depth fields fun field member => ih (shallow field member)
    | null => exact plain _ _ (show Shallow 0 .null from trivial)
    | bool value => exact plain _ _ (show Shallow 0 (.bool value) from trivial)
    | number literal => exact plain _ _ (show Shallow 0 (.number literal) from shallow)
    | string value => exact plain _ _ (show Shallow 0 (.string value) from trivial)

/-- What follows an opening bracket: lines with a comma between them. -/
def lineBody : List (List Char) → List Char
  | [] => []
  | [line] => '\n' :: line
  | line :: rest => '\n' :: line ++ ',' :: lineBody rest

theorem lineBody_eq {lines : List (List Char)} (some : lines ≠ []) :
    '\n' :: [',', '\n'].intercalate lines = lineBody lines := by
  induction lines with
  | nil => exact absurd rfl some
  | cons line rest ih =>
    cases rest with
    | nil => simp [lineBody]
    | cons next rest =>
      have tail := ih (by simp)
      simp [lineBody, ← tail, List.intercalate]

theorem length_le_lineBody {Item : Type} (line : Item → List Char) (items : List Item) :
    items.length ≤ (lineBody (items.map line)).length := by
  induction items with
  | nil => simp
  | cons item rest ih =>
    cases rest with
    | nil => simp [lineBody]
    | cons next rest =>
      simp only [List.map_cons, lineBody, List.length_cons, List.length_append] at ih ⊢
      omega

theorem toList_block (opening closing margin : String) {lines : List String} (some : lines ≠ []) :
    (block opening closing margin lines).toList =
      opening.toList ++ lineBody (lines.map fun line => (margin ++ "  ").toList ++ line.toList) ++
        '\n' :: (margin.toList ++ closing.toList) := by
  have filled : lines.isEmpty = false := by simpa using some
  rw [← lineBody_eq (by simpa using some)]
  simp [block, filled, String.toList_intercalate, Function.comp_def]

theorem indentedItems_eq (margin : String) (items : List Json) :
    indentedItems margin items = items.map (indented margin) := by
  induction items with
  | nil => rfl
  | cons item rest ih => rw [indentedItems, ih, List.map_cons]

theorem indentedFields_eq (margin : String) (fields : List (String × Json)) :
    indentedFields margin fields =
      fields.map fun field => quoted field.1 ++ ": " ++ indented margin field.2 := by
  induction fields with
  | nil => rfl
  | cons field rest ih => rw [indentedFields, ih, List.map_cons]

/-- A reader finds an item in a text, behind white space and up to the end of the item. -/
def Finds (value : List Char → Option (Json × List Char)) (text : List Char) (item : Json) : Prop :=
  ∀ ⦃blank rest : List Char⦄, IsMargin blank → Ends rest →
    value (blank ++ text ++ rest) = some (item, rest)

theorem isMargin_line {margin : List Char} (blank : IsMargin margin) : IsMargin ('\n' :: margin) := by
  rintro c (_ | ⟨_, member⟩)
  · rfl
  · exact blank c member

theorem ends_newline (rest : List Char) : Ends ('\n' :: rest) := ⟨_, _, rfl, .inr rfl⟩

theorem ends_comma (rest : List Char) : Ends (',' :: rest) := ⟨_, _, rfl, .inl rfl⟩

theorem skipSpace_comma (rest : List Char) : skipSpace (',' :: rest) = ',' :: rest :=
  skipSpace_cons rfl rest

/-- The lines of an array are read item by item. -/
theorem itemsUpTo_lines {value : List Char → Option (Json × List Char)} {margin inner : List Char}
    (blank : IsMargin margin) (innerBlank : IsMargin inner) (text : Json → List Char) {items : List Json}
    (filled : items ≠ []) (finds : ∀ item ∈ items, Finds value (text item) item) {fuel : Nat}
    (enough : items.length ≤ fuel) (rest : List Char) :
    itemsUpTo value fuel
        (lineBody (items.map fun item => inner ++ text item) ++ '\n' :: (margin ++ ']' :: rest)) =
      some (items, rest) := by
  induction items generalizing fuel with
  | nil => exact absurd rfl filled
  | cons item others ih =>
    obtain ⟨fuel, rfl⟩ : ∃ more, fuel = more + 1 :=
      Nat.exists_eq_succ_of_ne_zero (by rw [List.length_cons] at enough; omega)
    have line : ∀ {after}, Ends after →
        value ('\n' :: (inner ++ (text item ++ after))) = some (item, after) := by
      intro after ends
      simpa using finds item List.mem_cons_self (isMargin_line innerBlank) ends
    cases others with
    | nil =>
      have close : skipSpace ('\n' :: (margin ++ ']' :: rest)) = ']' :: rest :=
        skipSpace_front (isMargin_line blank) rfl rest
      simp [itemsUpTo, lineBody, line (ends_newline _), close]
    | cons next others =>
      have tail := ih (by simp) (fun other member => finds other (List.mem_cons_of_mem item member))
        (show (next :: others).length ≤ fuel by simpa using enough)
      rw [List.map_cons] at tail
      simp [itemsUpTo, lineBody, line (ends_comma _), skipSpace_comma, tail]

/-- What stands on the line of a field behind the margin. -/
def fieldLine (text : Json → List Char) (field : String × Json) : List Char :=
  (quoted field.1).toList ++ ':' :: ' ' :: text field.2

/-- A field is read from its line, and what follows it decides whether there are more. -/
theorem fieldsUpTo_line {value : List Char → Option (Json × List Char)} {inner : List Char}
    (innerBlank : IsMargin inner) {text : Json → List Char} {field : String × Json}
    (finds : Finds value (text field.2) field.2) (fuel : Nat) ⦃after : List Char⦄ (ends : Ends after) :
    fieldsUpTo value (fuel + 1) ('\n' :: (inner ++ (fieldLine text field ++ after))) =
      match skipSpace after with
      | ',' :: rest => (fieldsUpTo value fuel rest).map fun (fields, rest) => (field :: fields, rest)
      | '\x7d' :: rest => some ([field], rest)
      | _ => none := by
  obtain ⟨tail, opened, nameRead⟩ := stringTail_quoted field.1 (':' :: ' ' :: (text field.2 ++ after))
  have front : skipSpace ('\n' :: (inner ++ '\x22' :: tail)) = '\x22' :: tail :=
    skipSpace_front (isMargin_line innerBlank) rfl tail
  have colon :
      skipSpace (':' :: ' ' :: (text field.2 ++ after)) = ':' :: ' ' :: (text field.2 ++ after) :=
    skipSpace_cons rfl _
  have oneBlank : IsMargin [' '] := by
    rintro c (_ | ⟨_, member⟩)
    · rfl
    · exact absurd member List.not_mem_nil
  have found : value (' ' :: (text field.2 ++ after)) = some (field.2, after) := by
    simpa using finds oneBlank ends
  have whole : fieldLine text field ++ after = '\x22' :: tail := by
    rw [fieldLine, List.append_assoc, List.cons_append, List.cons_append, opened]
  rw [whole]
  simp only [fieldsUpTo, front, nameRead, colon, found, Option.bind_eq_bind, Option.bind_some,
    List.reverse_reverse, String.ofList_toList]
  split <;> simp_all [Option.map_eq_bind]

/-- The lines of an object are read field by field. -/
theorem fieldsUpTo_lines {value : List Char → Option (Json × List Char)} {margin inner : List Char}
    (blank : IsMargin margin) (innerBlank : IsMargin inner) (text : Json → List Char)
    {fields : List (String × Json)} (filled : fields ≠ [])
    (finds : ∀ field ∈ fields, Finds value (text field.2) field.2) {fuel : Nat}
    (enough : fields.length ≤ fuel) (rest : List Char) :
    fieldsUpTo value fuel
        (lineBody (fields.map fun field => inner ++ fieldLine text field) ++
          '\n' :: (margin ++ '\x7d' :: rest)) =
      some (fields, rest) := by
  induction fields generalizing fuel with
  | nil => exact absurd rfl filled
  | cons field others ih =>
    obtain ⟨fuel, rfl⟩ : ∃ more, fuel = more + 1 :=
      Nat.exists_eq_succ_of_ne_zero (by rw [List.length_cons] at enough; omega)
    have line := fieldsUpTo_line innerBlank (finds field List.mem_cons_self) fuel
    cases others with
    | nil =>
      have close : skipSpace ('\n' :: (margin ++ '\x7d' :: rest)) = '\x7d' :: rest :=
        skipSpace_front (isMargin_line blank) rfl rest
      simp [lineBody, line (ends_newline _), close]
    | cons next others =>
      have tail := ih (by simp) (fun other member => finds other (List.mem_cons_of_mem field member))
        (show (next :: others).length ≤ fuel by simpa using enough)
      rw [List.map_cons] at tail
      simp [lineBody, line (ends_comma _), skipSpace_comma, tail]

/-- No value starts with a closing bracket. -/
theorem valueUpTo_bracket {fuel : Nat} {cs rest : List Char} (front : skipSpace cs = ']' :: rest) :
    valueUpTo fuel cs = none := by
  cases fuel with
  | zero => rfl
  | succ fuel =>
    rw [valueUpTo, front]
    rfl

/-- The text of an integer starts with a digit or a sign. -/
theorem toString_front (n : Int) :
    ∃ c tail, (toString n).toList = c :: tail ∧ (isDigit c = true ∨ c = '-') := by
  obtain ⟨m, ⟨-, text⟩ | ⟨-, text⟩⟩ := toList_toString n
  · obtain ⟨c, tail, front, digit⟩ := toDigits_front m
    exact ⟨c, tail, by rw [text, front], .inl digit⟩
  · exact ⟨'-', _, text, .inr rfl⟩

theorem valueUpTo_number {fuel : Nat} {cs : List Char} {c : Char} {tail : List Char}
    (front : skipSpace cs = c :: tail) (numeric : isDigit c = true ∨ c = '-') :
    valueUpTo (fuel + 1) cs =
      (numberLiteral (c :: tail)).map fun (ds, rest) => (.number (String.ofList ds), rest) := by
  rw [valueUpTo, front]
  split
  case h_1 empty => exact absurd empty (List.cons_ne_nil _ _)
  case h_8 same => rw [same]
  all_goals
    rename_i same
    rw [(List.cons.inj same).1] at numeric
    exact absurd numeric (by decide)

theorem valueUpTo_toString (n : Int) (fuel : Nat) :
    Finds (valueUpTo (fuel + 1)) (toString n).toList (.number (toString n)) := by
  intro blank rest isBlank ends
  have literal := numberLiteral_toString n ends
  obtain ⟨c, tail, text, numeric⟩ := toString_front n
  have visible : isSpace c = false := by
    cases space : isSpace c with
    | false => rfl
    | true =>
      simp only [isSpace, Bool.or_eq_true, decide_eq_true_eq] at space
      rcases space with ((rfl | rfl) | rfl) | rfl <;> exact absurd numeric (by decide)
  have front : skipSpace (blank ++ (toString n).toList ++ rest) = c :: (tail ++ rest) := by
    rw [List.append_assoc, text, List.cons_append, skipSpace_front isBlank visible]
  rw [valueUpTo_number front numeric, ← List.cons_append, ← text, literal]
  simp

/-- A word is read where its first letter tells that it stands there. -/
theorem valueUpTo_keyword {value : Json} {c : Char} (letters : List Char) (fuel : Nat)
    (visible : isSpace c = false)
    (chosen : ∀ {cs tail}, skipSpace cs = c :: tail →
      valueUpTo (fuel + 1) cs = keyword? (.ofList (c :: letters)) value (c :: tail)) :
    Finds (valueUpTo (fuel + 1)) (String.ofList (c :: letters)).toList value := by
  intro blank rest isBlank ends
  have front :
      skipSpace (blank ++ (String.ofList (c :: letters)).toList ++ rest) = c :: (letters ++ rest) := by
    rw [List.append_assoc, String.toList_ofList, List.cons_append, skipSpace_front isBlank visible]
  rw [chosen front, keyword?, String.toList_ofList, if_pos (by simp), String.length_ofList]
  simp

theorem valueUpTo_quoted (value : String) (fuel : Nat) :
    Finds (valueUpTo (fuel + 1)) (quoted value).toList (.string value) := by
  intro blank rest isBlank ends
  obtain ⟨tail, opened, name⟩ := stringTail_quoted value rest
  have front : skipSpace (blank ++ (quoted value).toList ++ rest) = '\x22' :: tail := by
    rw [List.append_assoc, opened, skipSpace_front isBlank rfl]
  rw [valueUpTo, front]
  simp [name]

theorem isMargin_indent {margin : String} (blank : IsMargin margin.toList) :
    IsMargin (margin ++ "  ").toList := by
  intro c member
  rw [String.toList_append, List.mem_append] at member
  rcases member with inside | added
  · exact blank c inside
  · rw [show "  ".toList = List.replicate 2 ' ' from rfl] at added
    rw [List.eq_of_mem_replicate added]
    rfl

theorem valueUpTo_array {fuel : Nat} {cs body rest : List Char} {items : List Json}
    (front : skipSpace cs = '[' :: body) (inhabited : ∀ tail, skipSpace body ≠ ']' :: tail)
    (read : itemsUpTo (valueUpTo fuel) body.length body = some (items, rest)) :
    valueUpTo (fuel + 1) cs = some (.array items, rest) := by
  rw [valueUpTo, front]
  simp only [read]
  rfl

theorem valueUpTo_object {fuel : Nat} {cs body rest : List Char} {fields : List (String × Json)}
    (front : skipSpace cs = '\x7b' :: body) (inhabited : ∀ tail, skipSpace body ≠ '\x7d' :: tail)
    (read : fieldsUpTo (valueUpTo fuel) body.length body = some (fields, rest)) :
    valueUpTo (fuel + 1) cs = some (.object fields, rest) := by
  rw [valueUpTo, front]
  simp only [read]
  rfl

/-- The first line stands behind the opening bracket and ends as an item does. -/
theorem lineBody_front (line : List Char) (others : List (List Char)) (after : List Char) :
    ∃ tail, Ends tail ∧ lineBody (line :: others) ++ '\n' :: after = '\n' :: line ++ tail := by
  cases others with
  | nil => exact ⟨_, ends_newline after, rfl⟩
  | cons next others =>
    exact ⟨_, ends_comma (lineBody (next :: others) ++ '\n' :: after), by simp [lineBody]⟩

/-- Behind white space stands the opening bracket of a block, behind it the lines. -/
theorem skipSpace_block (opening closing : Char) (visible : isSpace opening = false) {before : List Char}
    (isBlank : IsMargin before) (margin : String) {Item : Type} (line : Item → String) {items : List Item}
    (filled : items ≠ []) (rest : List Char) :
    skipSpace (before ++
        (block (.ofList [opening]) (.ofList [closing]) margin (items.map line)).toList ++ rest) =
      opening :: (lineBody (items.map fun item => (margin ++ "  ").toList ++ (line item).toList) ++
        '\n' :: (margin.toList ++ closing :: rest)) := by
  rw [toList_block _ _ margin (by simpa using filled), String.toList_ofList, String.toList_ofList,
    List.map_map]
  simp only [List.append_assoc, List.cons_append, List.nil_append]
  exact skipSpace_front isBlank visible _

theorem skipSpace_emptyBlock (opening closing : Char) (visible : isSpace opening = false)
    {before : List Char}
    (isBlank : IsMargin before) (margin : String) (rest : List Char) :
    skipSpace (before ++ (block (.ofList [opening]) (.ofList [closing]) margin []).toList ++ rest) =
      opening :: closing :: rest := by
  simp [block, skipSpace_front isBlank visible]

theorem indented_array (margin : String) (items : List Json) :
    indented margin (.array items) =
      block (.ofList ['[']) (.ofList [']']) margin (items.map (indented (margin ++ "  "))) := by
  rw [indented, indentedItems_eq]

theorem indented_object (margin : String) (fields : List (String × Json)) :
    indented margin (.object fields) = block (.ofList ['\x7b']) (.ofList ['\x7d']) margin
      (fields.map fun field => quoted field.1 ++ ": " ++ indented (margin ++ "  ") field.2) := by
  rw [indented, indentedFields_eq]

/-- An array is read from its lines when its items are. -/
theorem finds_array {margin : String} (blank : IsMargin margin.toList) {fuel : Nat} {items : List Json}
    (finds : ∀ item ∈ items, Finds (valueUpTo fuel) (indented (margin ++ "  ") item).toList item) :
    Finds (valueUpTo (fuel + 1)) (indented margin (.array items)).toList (.array items) := by
  intro before rest isBlank ends
  rw [indented_array]
  rcases items with _ | ⟨item, others⟩
  · rw [List.map_nil, valueUpTo, skipSpace_emptyBlock '[' ']' rfl isBlank margin rest]
    rfl
  · have inner := isMargin_indent blank
    have front := skipSpace_block '[' ']' rfl isBlank margin (indented (margin ++ "  "))
      (List.cons_ne_nil item others) rest
    refine valueUpTo_array front (fun tail closed => ?_) ?_
    · obtain ⟨after, afterEnds, shape⟩ := lineBody_front
        ((margin ++ "  ").toList ++ (indented (margin ++ "  ") item).toList)
        (others.map fun item => (margin ++ "  ").toList ++ (indented (margin ++ "  ") item).toList)
        (margin.toList ++ ']' :: rest)
      have found := finds item List.mem_cons_self (isMargin_line inner) afterEnds
      rw [List.cons_append, ← shape] at found
      exact nomatch found.symm.trans (valueUpTo_bracket closed)
    · refine itemsUpTo_lines blank inner _ (List.cons_ne_nil item others) finds ?_ rest
      rw [List.length_append]
      exact le_trans (length_le_lineBody _ _) (Nat.le_add_right _ _)

/-- An object is read from its lines when its fields are. -/
theorem finds_object {margin : String} (blank : IsMargin margin.toList) {fuel : Nat}
    {fields : List (String × Json)}
    (finds : ∀ field ∈ fields,
      Finds (valueUpTo fuel) (indented (margin ++ "  ") field.2).toList field.2) :
    Finds (valueUpTo (fuel + 1)) (indented margin (.object fields)).toList (.object fields) := by
  intro before rest isBlank ends
  rw [indented_object]
  rcases fields with _ | ⟨field, others⟩
  · rw [List.map_nil, valueUpTo, skipSpace_emptyBlock '\x7b' '\x7d' rfl isBlank margin rest]
    rfl
  · have inner := isMargin_indent blank
    let text := fun item => (indented (margin ++ "  ") item).toList
    have spelled : ∀ field : String × Json,
        (quoted field.1 ++ ": " ++ indented (margin ++ "  ") field.2).toList = fieldLine text field := by
      intro field
      simp [fieldLine, text]
    have front := skipSpace_block '\x7b' '\x7d' rfl isBlank margin
      (fun field => quoted field.1 ++ ": " ++ indented (margin ++ "  ") field.2)
      (List.cons_ne_nil field others) rest
    simp only [spelled] at front
    refine valueUpTo_object front (fun tail closed => ?_) ?_
    · obtain ⟨after, -, shape⟩ := lineBody_front ((margin ++ "  ").toList ++ fieldLine text field)
        (others.map fun field => (margin ++ "  ").toList ++ fieldLine text field)
        (margin.toList ++ '\x7d' :: rest)
      obtain ⟨behind, opened, -⟩ := stringTail_quoted field.1 (':' :: ' ' :: text field.2 ++ after)
      have line : '\n' :: ((margin ++ "  ").toList ++ fieldLine text field) ++ after =
          '\n' :: (margin ++ "  ").toList ++ '\x22' :: behind := by
        rw [← opened, fieldLine]
        simp
      rw [List.map_cons, shape, line, skipSpace_front (isMargin_line inner) rfl] at closed
      exact absurd (List.cons.inj closed).1 (by decide)
    · refine fieldsUpTo_lines blank inner text (List.cons_ne_nil field others) finds ?_ rest
      rw [List.length_append]
      exact le_trans (length_le_lineBody _ _) (Nat.le_add_right _ _)

theorem valueUpTo_bool (value : Bool) (fuel : Nat) :
    Finds (valueUpTo (fuel + 1)) (compact (.bool value)).toList (.bool value) := by
  cases value with
  | true =>
    refine valueUpTo_keyword ['r', 'u', 'e'] fuel rfl fun front => ?_
    rw [valueUpTo, front]
    rfl
  | false =>
    refine valueUpTo_keyword ['a', 'l', 's', 'e'] fuel rfl fun front => ?_
    rw [valueUpTo, front]
    rfl

theorem valueUpTo_null (fuel : Nat) : Finds (valueUpTo (fuel + 1)) (compact .null).toList .null := by
  refine valueUpTo_keyword ['u', 'l', 'l'] fuel rfl fun front => ?_
  rw [valueUpTo, front]
  rfl

/-- A document without items is read back from its text. -/
theorem finds_plain {document : Json} (plain : Shallow 0 document) (margin : String) (fuel : Nat) :
    Finds (valueUpTo (fuel + 1)) (indented margin document).toList document := by
  cases document with
  | null => exact valueUpTo_null fuel
  | bool value => exact valueUpTo_bool value fuel
  | number literal =>
    obtain ⟨n, rfl⟩ := plain
    exact valueUpTo_toString n fuel
  | string value => exact valueUpTo_quoted value fuel
  | array items => exact plain.elim
  | object fields => exact plain.elim

/-- A document that is not nested too deep is read back from its indented text. -/
theorem finds_indented {depth : Nat} {document : Json} (shallow : Shallow depth document) :
    ∀ (fuel : Nat) (margin : String), depth ≤ fuel → IsMargin margin.toList →
      Finds (valueUpTo (fuel + 1)) (indented margin document).toList document := by
  refine shallow_induction (motive := fun depth document => ∀ fuel margin, depth ≤ fuel →
    IsMargin margin.toList → Finds (valueUpTo (fuel + 1)) (indented margin document).toList document)
    (fun depth document plain => ?_) (fun depth items ih => ?_) (fun depth fields ih => ?_) shallow
  · intro fuel margin _ _
    exact finds_plain plain margin fuel
  · intro fuel margin enough blank
    obtain ⟨fuel, rfl⟩ : ∃ more, fuel = more + 1 := Nat.exists_eq_succ_of_ne_zero (by omega)
    exact finds_array blank fun item member => ih item member fuel _ (by omega) (isMargin_indent blank)
  · intro fuel margin enough blank
    obtain ⟨fuel, rfl⟩ : ∃ more, fuel = more + 1 := Nat.exists_eq_succ_of_ne_zero (by omega)
    exact finds_object blank fun field member => ih field member fuel _ (by omega) (isMargin_indent blank)

/-- The first document of a file is the one that was written. -/
theorem first?_file {depth : Nat} {document : Json} (shallow : Shallow depth document)
    (enough : depth ≤ maxDepth) : first? (file document) = some (document, ['\n']) := by
  have noMargin : IsMargin "".toList := by simp [IsMargin]
  have found := finds_indented shallow maxDepth "" enough noMargin noMargin (ends_newline [])
  simpa [first?, file] using found

end ClasspathAudit.Json
