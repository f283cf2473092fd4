import Mathlib.Data.List.DropRight
import Reckoner.Token

/-!
# Spacing

How a row of lexical units is written: the units in their order, with any spacing before, between
and after them.  The relation `Spaced` says so without a scan, and it may be read from both ends,
so the margins of a text can be trimmed.
-/

namespace Reckoner

/-- A text that consists of the given units in their order and of spacing around them. -/
inductive Spaced : List (List Char) → List Char → Prop
  | nil : Spaced [] []
  | space {character : Char} {units : List (List Char)} {text : List Char}
      (blank : isSpacing character = true) (rest : Spaced units text) :
      Spaced units (character :: text)
  | cons (unit : List Char) {units : List (List Char)} {text : List Char}
      (rest : Spaced units text) : Spaced (unit :: units) (unit ++ text)

/-- A text that a scan may take as one unit: it is not empty and has no blank at its edges. -/
structure IsSolid (text : List Char) : Prop where
  /-- There is a character. -/
  nonempty : text ≠ []
  /-- The first character is visible. -/
  head : text.head?.all fun character => !isBlank character
  /-- The last character is visible. -/
  last : text.getLast?.all fun character => !isBlank character

theorem IsSolid.of_visible {text : List Char} (nonempty : text ≠ [])
    (visible : ∀ character ∈ text, isBlank character = false) : IsSolid text := by
  refine ⟨nonempty, ?_, ?_⟩
  · cases found : text.head? with
    | none => rfl
    | some first => simp [visible first (List.mem_of_head? found)]
  · cases found : text.getLast? with
    | none => rfl
    | some last => simp [visible last (List.mem_of_getLast? found)]

theorem isBlank_of_isSpacing {character : Char} (spacing : isSpacing character = true) :
    isBlank character = true := by
  simp only [isSpacing, Bool.or_eq_true, beq_iff_eq] at spacing
  rcases spacing with ((rfl | rfl) | rfl) | rfl <;> decide

theorem not_isSpacing_of_not_isBlank {character : Char} (visible : isBlank character = false) :
    isSpacing character = false := by
  rw [Bool.eq_false_iff]
  intro spacing
  simp [isBlank_of_isSpacing spacing] at visible

namespace Spaced

variable {units front back : List (List Char)} {text left right : List Char}

theorem append (first : Spaced front left) (second : Spaced back right) :
    Spaced (front ++ back) (left ++ right) := by
  induction first with
  | nil => exact second
  | space blank _ ih => exact .space blank ih
  | cons unit _ ih =>
      rw [List.append_assoc]
      exact .cons unit ih

theorem single (unit : List Char) : Spaced [unit] unit := by
  simpa using Spaced.cons unit .nil

/-- Read from its end, a text consists of the reversed units in reversed order. -/
theorem reverse (spaced : Spaced units text) :
    Spaced (units.reverse.map List.reverse) text.reverse := by
  induction spaced with
  | nil => exact .nil
  | @space character units text blank _ ih =>
      rw [List.reverse_cons]
      simpa using ih.append (Spaced.space blank .nil)
  | @cons unit units text _ ih =>
      rw [List.reverse_append, List.reverse_cons, List.map_append]
      exact ih.append (single unit.reverse)

/-- The units of a text without the blanks before its first unit. -/
theorem dropWhile_isBlank (spaced : Spaced units text)
    (solid : ∀ unit ∈ units, unit ≠ [] ∧ unit.head?.all fun character => !isBlank character) :
    Spaced units (text.dropWhile isBlank) := by
  induction spaced with
  | nil => exact .nil
  | space blank _ ih =>
      rw [List.dropWhile_cons_of_pos (isBlank_of_isSpacing blank)]
      exact ih solid
  | @cons unit units text rest _ =>
      obtain ⟨nonempty, visible⟩ := solid unit List.mem_cons_self
      obtain ⟨head, tail, rfl⟩ := List.exists_cons_of_ne_nil nonempty
      have stays : ¬ isBlank head = true := by simpa using visible
      rw [List.cons_append, List.dropWhile_cons_of_neg stays]
      exact .cons (head :: tail) rest

/-- The units of a text without the blanks after its last unit. -/
theorem rdropWhile_isBlank (spaced : Spaced units text) (solid : ∀ unit ∈ units, IsSolid unit) :
    Spaced units (text.rdropWhile isBlank) := by
  have back := spaced.reverse.dropWhile_isBlank (by
    intro unit member
    obtain ⟨original, found, rfl⟩ := List.mem_map.mp member
    have edges := solid original (List.mem_reverse.mp found)
    exact ⟨by simpa using edges.nonempty, by simpa using edges.last⟩)
  simpa [List.rdropWhile, Function.comp_def] using back.reverse

/-- Trimming a text keeps its units. -/
theorem trim (spaced : Spaced units text) (solid : ∀ unit ∈ units, IsSolid unit) :
    Spaced units (trim text) :=
  (spaced.dropWhile_isBlank fun unit member =>
    ⟨(solid unit member).nonempty, (solid unit member).head⟩).rdropWhile_isBlank solid

/-- Where the first unit of a text begins and ends. -/
theorem exists_of_cons {unit : List Char} (spaced : Spaced (unit :: units) text) :
    ∃ gap rest, text = gap ++ unit ++ rest ∧
      (∀ character ∈ gap, isSpacing character = true) ∧ Spaced units rest := by
  generalize row : unit :: units = all at spaced
  induction spaced with
  | nil => exact nomatch row
  | @space character _ _ blank _ ih =>
      obtain ⟨gap, rest, rfl, spacing, later⟩ := ih row
      exact ⟨character :: gap, rest, rfl, List.forall_mem_cons.mpr ⟨blank, spacing⟩, later⟩
  | @cons _ _ rest later =>
      obtain ⟨rfl, rfl⟩ := List.cons.inj row
      exact ⟨[], rest, rfl, by simp, later⟩

/-- A text without units is spacing. -/
theorem isSpacing_of_mem (spaced : Spaced [] text) :
    ∀ character ∈ text, isSpacing character = true := by
  generalize row : ([] : List (List Char)) = none at spaced
  induction spaced with
  | nil => simp
  | space blank _ ih => exact List.forall_mem_cons.mpr ⟨blank, ih row⟩
  | cons => exact nomatch row

/-- A character of a text is spacing or belongs to a unit. -/
theorem mem_cases (spaced : Spaced units text) {character : Char} (member : character ∈ text) :
    isSpacing character = true ∨ ∃ unit ∈ units, character ∈ unit := by
  induction spaced with
  | nil => simp at member
  | space blank _ ih =>
      rcases List.mem_cons.mp member with rfl | later
      · exact .inl blank
      · exact ih later
  | @cons unit units text _ ih =>
      rcases List.mem_append.mp member with inUnit | later
      · exact .inr ⟨unit, List.mem_cons_self, inUnit⟩
      · exact (ih later).imp_right fun ⟨other, found, inOther⟩ =>
          ⟨other, List.mem_cons_of_mem _ found, inOther⟩

/-- A text has the characters of its units. -/
theorem mem_of_mem_unit (spaced : Spaced units text) {unit : List Char} (found : unit ∈ units)
    {character : Char} (member : character ∈ unit) : character ∈ text := by
  induction spaced with
  | nil => simp at found
  | space _ _ ih => exact List.mem_cons_of_mem _ (ih found)
  | @cons first units text _ ih =>
      rcases List.mem_cons.mp found with rfl | later
      · exact List.mem_append_left text member
      · exact List.mem_append_right first (ih later)

/-- A text with units in it is not empty. -/
theorem ne_nil (spaced : Spaced units text) (filled : units ≠ [])
    (nonempty : ∀ unit ∈ units, unit ≠ []) : text ≠ [] := by
  induction spaced with
  | nil => exact absurd rfl filled
  | space => exact List.cons_ne_nil _ _
  | cons unit => exact List.append_ne_nil_of_left_ne_nil (nonempty unit List.mem_cons_self) _

/-- The units account for every character that is not spacing. -/
theorem filter_eq_flatten (spaced : Spaced units text)
    (visible : ∀ unit ∈ units, ∀ character ∈ unit, isSpacing character = false) :
    text.filter (fun character => !isSpacing character) = units.flatten := by
  induction spaced with
  | nil => rfl
  | space blank _ ih => simpa [blank] using ih visible
  | @cons unit units text _ ih =>
      rw [List.forall_mem_cons] at visible
      have kept : unit.filter (fun character => !isSpacing character) = unit :=
        List.filter_eq_self.mpr fun character member => by simp [visible.1 character member]
      rw [List.filter_append, kept, ih visible.2, List.flatten_cons]

end Spaced

/-! ## The margins of a text -/

section Trimming

variable {front back : List Char}

/-- Trimming takes away all blanks around a text. -/
theorem trim_margins (before : ∀ character ∈ front, isBlank character = true)
    (after : ∀ character ∈ back, isBlank character = true) (text : List Char) :
    trim (front ++ text ++ back) = trim text := by
  have none : back.dropWhile isBlank = [] := List.dropWhile_eq_nil_iff.mpr after
  have reversed : ∀ character ∈ back.reverse, isBlank character = true := by simpa using after
  rw [trim, trim, List.append_assoc, List.dropWhile_append_of_pos before, List.dropWhile_append]
  split
  case isTrue blank => rw [none, List.isEmpty_iff.mp blank]
  case isFalse => rw [List.reverse_append, List.dropWhile_append_of_pos reversed]

/-- A text is what trimming leaves of it, with blanks around. -/
theorem exists_margins (text : List Char) :
    ∃ front back, text = front ++ trim text ++ back ∧
      (∀ character ∈ front, isBlank character = true) ∧
        ∀ character ∈ back, isBlank character = true := by
  refine ⟨text.takeWhile isBlank, (text.dropWhile isBlank).rtakeWhile isBlank, ?_,
    fun character => List.mem_takeWhile_imp, fun character => List.mem_rtakeWhile_imp⟩
  have last : trim text ++ (text.dropWhile isBlank).rtakeWhile isBlank = text.dropWhile isBlank :=
    List.rdropWhile_append_rtakeWhile
  rw [List.append_assoc, last, List.takeWhile_append_dropWhile]

theorem trim_rdropWhile (text : List Char) : trim (text.rdropWhile isBlank) = trim text := by
  have whole : text.rdropWhile isBlank ++ text.rtakeWhile isBlank = text :=
    List.rdropWhile_append_rtakeWhile
  have none : ∀ character ∈ ([] : List Char), isBlank character = true := by simp
  have same := trim_margins none
    (fun character => List.mem_rtakeWhile_imp (p := isBlank) (l := text)) (text.rdropWhile isBlank)
  rwa [List.nil_append, whole, eq_comm] at same

/-- Trimming a second time changes nothing. -/
theorem trim_trim (text : List Char) : trim (trim text) = trim text := by
  obtain ⟨front, back, whole, before, after⟩ := exists_margins text
  have same := trim_margins before after (trim text)
  rw [← whole] at same
  exact same.symm

end Trimming

end Reckoner
