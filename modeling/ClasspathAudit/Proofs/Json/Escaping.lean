import ClasspathAudit.Proofs.Json.RoundTrip

/-!
The characters of JSON text as it is written. Whatever texts a document holds, none of its characters
could end a script element that the text stands in, or a line of the script.
-/

namespace ClasspathAudit.Json

open Text

/-- A character that does no harm inside a script: no control character but the end of a line, no markup
and no separator of lines or paragraphs. -/
def harmless (c : Char) : Bool :=
  (decide (0x20 ≤ c.toNat) || c == '\n') && c.toNat ∉ [0x3C, 0x3E, 0x26, 0x2028, 0x2029]

def Harmless (cs : List Char) : Prop := ∀ c ∈ cs, harmless c = true

instance (cs : List Char) : Decidable (Harmless cs) :=
  decidable_of_iff (cs.all harmless = true) List.all_eq_true

theorem harmless_append {first second : List Char} (front : Harmless first) (back : Harmless second) :
    Harmless (first ++ second) :=
  List.forall_mem_append.mpr ⟨front, back⟩

theorem harmless_hexDigit : ∀ digit < 16, harmless (hexDigit digit) = true := by decide

theorem harmless_unicodeEscape (n : Nat) : Harmless (unicodeEscape n) := by
  have digit : ∀ m, harmless (hexDigit (m % 16)) = true := fun m =>
    harmless_hexDigit _ (Nat.mod_lt _ (by decide))
  have backslash : harmless '\\' = true ∧ harmless 'u' = true := by decide
  simp [Harmless, unicodeEscape, hexFixed, digit, backslash]

theorem harmless_escapeChar (c : Char) : Harmless (escapeChar c) := by
  unfold escapeChar
  split
  case h_1 code =>
    rw [eq_ofNat code]
    decide
  case h_2 code =>
    rw [eq_ofNat code]
    decide
  case h_8 =>
    split
    next => exact harmless_unicodeEscape _
    next plain =>
      obtain ⟨visible, noMarkup⟩ := not_or.mp plain
      rintro _ (_ | ⟨_, none⟩)
      · simpa [harmless, not_lt.mp visible] using noMarkup
      · cases none
  all_goals decide

theorem harmless_quoted (s : String) : Harmless (quoted s).toList := by
  intro c member
  rw [quoted, String.toList_ofList, List.mem_append, List.mem_cons, List.mem_flatMap,
    List.mem_singleton] at member
  rcases member with (rfl | ⟨d, -, inside⟩) | rfl
  · rfl
  · exact harmless_escapeChar d c inside
  · rfl

theorem harmless_toString (n : Int) : Harmless (toString n).toList := by
  have digits : ∀ m, Harmless (Nat.toDigits 10 m) := by
    intro m c member
    have digit := isDigit_of_mem_toDigits member
    simp only [isDigit, Bool.and_eq_true, decide_eq_true_eq] at digit
    have low : 48 ≤ c.toNat := digit.1
    have high : c.toNat ≤ 57 := digit.2
    have visible : 32 ≤ c.toNat := by omega
    have noMarkup : c.toNat ∉ [0x3C, 0x3E, 0x26, 0x2028, 0x2029] := by
      simp only [List.mem_cons, List.not_mem_nil, or_false]
      omega
    simp only [harmless, visible, noMarkup, not_false_eq_true, decide_true, Bool.true_or, Bool.and_self]
  obtain ⟨m, ⟨-, text⟩ | ⟨-, text⟩⟩ := toList_toString n <;> rw [text]
  · exact digits m
  · exact List.forall_mem_cons.mpr ⟨rfl, digits m⟩

theorem harmless_lineBody {lines : List (List Char)} (each : ∀ line ∈ lines, Harmless line) :
    Harmless (lineBody lines) := by
  have newline : harmless '\n' = true := rfl
  have comma : harmless ',' = true := rfl
  fun_induction lineBody lines with
  | case1 => exact List.forall_mem_nil _
  | case2 line => exact List.forall_mem_cons.mpr ⟨newline, each line List.mem_cons_self⟩
  | case3 line rest _ ih =>
    obtain ⟨first, others⟩ := List.forall_mem_cons.mp each
    exact harmless_append (List.forall_mem_cons.mpr ⟨newline, first⟩)
      (List.forall_mem_cons.mpr ⟨comma, ih others⟩)

theorem harmless_indent {margin : String} (blank : Harmless margin.toList) :
    Harmless (margin ++ "  ").toList := by
  rw [String.toList_append]
  exact harmless_append blank (by decide)

theorem harmless_block {opening closing margin : String} (front : Harmless opening.toList)
    (back : Harmless closing.toList) (blank : Harmless margin.toList) {lines : List String}
    (each : ∀ line ∈ lines, Harmless line.toList) :
    Harmless (block opening closing margin lines).toList := by
  rcases eq_or_ne lines [] with rfl | filled
  · have empty : (block opening closing margin []).toList = opening.toList ++ closing.toList := by
      simp [block]
    rw [empty]
    exact harmless_append front back
  · rw [toList_block opening closing margin filled]
    refine harmless_append (harmless_append front (harmless_lineBody ?_))
      (List.forall_mem_cons.mpr ⟨rfl, harmless_append blank back⟩)
    intro line member
    obtain ⟨inner, listed, rfl⟩ := List.mem_map.mp member
    exact harmless_append (harmless_indent blank) (each inner listed)

theorem harmless_plain {document : Json} (plain : Shallow 0 document) (margin : String) :
    Harmless (indented margin document).toList := by
  cases document with
  | null =>
    show Harmless "null".toList
    decide
  | bool value =>
    cases value with
    | false =>
      show Harmless "false".toList
      decide
    | true =>
      show Harmless "true".toList
      decide
  | number literal =>
    obtain ⟨n, rfl⟩ := plain
    exact harmless_toString n
  | string value => exact harmless_quoted value
  | array items => exact plain.elim
  | object fields => exact plain.elim

/-- The text of a document does no harm inside a script. -/
theorem harmless_indented {depth : Nat} {document : Json} (shallow : Shallow depth document) :
    ∀ margin : String, Harmless margin.toList → Harmless (indented margin document).toList := by
  refine shallow_induction
    (motive := fun _ document => ∀ margin, Harmless margin.toList →
      Harmless (indented margin document).toList)
    (fun depth document plain => ?_) (fun depth items ih => ?_) (fun depth fields ih => ?_) shallow
  · intro margin _
    exact harmless_plain plain margin
  · intro margin blank
    rw [indented_array]
    refine harmless_block (by decide) (by decide) blank ?_
    intro line member
    obtain ⟨item, listed, rfl⟩ := List.mem_map.mp member
    exact ih item listed _ (harmless_indent blank)
  · intro margin blank
    rw [indented_object]
    refine harmless_block (by decide) (by decide) blank ?_
    intro line member
    obtain ⟨field, listed, rfl⟩ := List.mem_map.mp member
    rw [String.toList_append, String.toList_append]
    exact harmless_append (harmless_append (harmless_quoted field.1) (by decide))
      (ih field listed _ (harmless_indent blank))

theorem harmless_file {depth : Nat} {document : Json} (shallow : Shallow depth document) :
    Harmless (file document).toList := by
  rw [file, String.toList_append]
  exact harmless_append (harmless_indented shallow _ (by decide)) (by decide)

end ClasspathAudit.Json
