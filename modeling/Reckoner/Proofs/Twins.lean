import Mathlib.Data.Rat.Floor
import Reckoner.Proofs.Correspondence
import Reckoner.Proofs.Exactness

/-!
# Texts of equal numbers

Texts that differ only in the zeros with which the decimals of numbers end, or in how such a number
ends at all (`3` and `3.00`).  They have corresponding tokens (`Twins.rows`), and numerals that are
such texts are read as decimals of one number (`Twins.sameNumber`).  What a decimal that is written
in positional notation is followed by matters: a digit after it would be one of its digits.
-/

namespace Reckoner

/-! ## Fractions -/

/-- The end of a numeral with the given digits after the point; no point without digits. -/
def pointed : List Char → List Char
  | [] => []
  | digits => '.' :: digits

theorem pointed_of_ne_nil {digits : List Char} (nonempty : digits ≠ []) :
    pointed digits = '.' :: digits := by
  cases digits with
  | nil => exact absurd rfl nonempty
  | cons => rfl

/-- Digits that are the same number after a point. -/
structure SameFraction (left right : List Char) : Prop where
  /-- There are only digits. -/
  leftDigits : ∀ character ∈ left, character.isDigit = true
  /-- In both. -/
  rightDigits : ∀ character ∈ right, character.isDigit = true
  /-- They differ in zeros at the end. -/
  value : Digits.decode left * 10 ^ right.length = Digits.decode right * 10 ^ left.length

/-- Whether a text does not go on with a digit. -/
def EndsNumber (text : List Char) : Prop := ∀ next ∈ text.head?, next.isDigit = false

/-! ## Texts -/

/-- Texts that differ only in how the decimals of equal numbers end. -/
inductive Twins : List Char → List Char → Prop
  /-- The end of both. -/
  | nil : Twins [] []
  /-- The same character in both. -/
  | cons (character : Char) {left right : List Char} (others : Twins left right) :
      Twins (character :: left) (character :: right)
  /-- The last digit of a whole, and equal fractions after it. -/
  | fraction {digit : Char} {first second left right : List Char} (whole : digit.isDigit = true)
      (same : SameFraction first second) (ends : EndsNumber left) (others : Twins left right) :
      Twins (digit :: (pointed first ++ left)) (digit :: (pointed second ++ right))

namespace Twins

variable {left right : List Char}

theorem refl (text : List Char) : Twins text text := by
  induction text with
  | nil => exact .nil
  | cons character text ih => exact .cons character ih

theorem append (text : List Char) (twins : Twins left right) :
    Twins (text ++ left) (text ++ right) := by
  induction text with
  | nil => exact twins
  | cons character text ih => exact .cons character ih

/-- They begin with the same character. -/
theorem head?_eq (twins : Twins left right) : left.head? = right.head? := by
  cases twins <;> rfl

theorem eq_nil_iff (twins : Twins left right) : left = [] ↔ right = [] := by
  cases twins <;> simp

end Twins

/-! ## Numerals -/

namespace Numeral

theorem not_mem_point_of_magnitude {digits : List Char} {number : Nat}
    (read : magnitude digits = .ok number) : '.' ∉ digits := by
  intro member
  unfold magnitude at read
  split at read
  · exact nomatch member
  · exact nomatch read
  · split at read
    case isTrue all => exact absurd (List.all_eq_true.mp all '.' member) (by decide)
    case isFalse => exact nomatch read

theorem not_mem_point_of_signed {digits : List Char} {number : Int}
    (read : signed digits = .ok number) : '.' ∉ digits := by
  unfold signed at read
  split at read
  · obtain ⟨_, whole, -⟩ := exists_of_bind_eq_ok read
    simpa using not_mem_point_of_magnitude whole
  · obtain ⟨_, whole, -⟩ := exists_of_bind_eq_ok read
    simpa using not_mem_point_of_magnitude whole
  · obtain ⟨_, whole, -⟩ := exists_of_bind_eq_ok read
    exact not_mem_point_of_magnitude whole

/-- What stands around the first point. -/
theorem withoutPoint_of_not_mem {left right : List Char} (first : '.' ∉ left) :
    (withoutPoint (left ++ '.' :: right)).1 = left ++ right := by
  have whole : (left ++ '.' :: right).takeWhile (fun character => character != '.') = left := by
    rw [List.takeWhile_append_of_pos]
    · simp
    · rintro character member
      simpa using ne_of_mem_of_not_mem member first
  simp [withoutPoint, whole]

end Numeral

namespace Decimal

open Numeral

variable {text : List Char} {number : Decimal}

/-- A run of digits and points that is a numeral is read as its digits without the point. -/
theorem exists_of_ofNumeral (characters : ∀ character ∈ text, isNumberCharacter character = true)
    (read : ofNumeral text = .ok number) :
    ∃ digits, signed (withoutPoint text).1 = .ok digits ∧
      scaleFits (withoutPoint text).2 = true ∧ number = ⟨digits, (withoutPoint text).2⟩ := by
  have nonempty : text ≠ [] := by
    rintro rfl
    exact nomatch read
  rw [ofNumeral_eq_of_plain nonempty fun character member =>
    isExponentMark_of_isNumberCharacter (characters character member)] at read
  split at read
  case isTrue fits =>
    cases found : signed (withoutPoint text).1 with
    | error defect =>
        rw [found] at read
        exact nomatch read
    | ok digits =>
        rw [found] at read
        exact ⟨digits, rfl, fits, (Except.ok.inj read).symm⟩
  case isFalse => exact nomatch read

/-- A numeral has at most one point. -/
theorem count_point_le_one (characters : ∀ character ∈ text, isNumberCharacter character = true)
    (read : ofNumeral text = .ok number) : text.count '.' ≤ 1 := by
  obtain ⟨digits, signed, -⟩ := exists_of_ofNumeral characters read
  by_cases point : '.' ∈ text
  · obtain ⟨left, right, rfl, first⟩ := List.eq_append_cons_of_mem point
    rw [withoutPoint_of_not_mem first] at signed
    have absent := not_mem_point_of_signed signed
    rw [List.mem_append, not_or] at absent
    simp [List.count_eq_zero_of_not_mem absent.1, List.count_eq_zero_of_not_mem absent.2]
  · simp [List.count_eq_zero_of_not_mem point]

theorem isNumberCharacter_of_pointed {whole fraction : List Char}
    (wholeDigits : ∀ character ∈ whole, character.isDigit = true)
    (fractionDigits : ∀ character ∈ fraction, character.isDigit = true) :
    ∀ character ∈ whole ++ pointed fraction, isNumberCharacter character = true := by
  have digit {character : Char} (isDigit : character.isDigit = true) :
      isNumberCharacter character = true := by simp [isNumberCharacter, isDigit]
  rw [List.forall_mem_append]
  refine ⟨fun character member => digit (wholeDigits character member), ?_⟩
  cases fraction with
  | nil => simp [pointed]
  | cons first rest =>
      rw [pointed_of_ne_nil (List.cons_ne_nil first rest), List.forall_mem_cons]
      exact ⟨rfl, fun character member => digit (fractionDigits character member)⟩

/-- The number of a whole and a fraction. -/
theorem toRat_of_pointed {whole fraction : List Char} (nonempty : whole ≠ [])
    (wholeDigits : ∀ character ∈ whole, character.isDigit = true)
    (fractionDigits : ∀ character ∈ fraction, character.isDigit = true)
    (read : ofNumeral (whole ++ pointed fraction) = .ok number) :
    number.toRat = Digits.decode whole + Digits.decode fraction / 10 ^ fraction.length := by
  have all : ∀ character ∈ whole ++ fraction, character.isDigit = true := by
    rw [List.forall_mem_append]
    exact ⟨wholeDigits, fractionDigits⟩
  have parts : withoutPoint (whole ++ pointed fraction) = (whole ++ fraction, fraction.length) := by
    cases fraction with
    | nil => simpa [pointed] using withoutPoint_of_digits wholeDigits
    | cons digit fraction => exact withoutPoint_of_point wholeDigits fractionDigits
  obtain ⟨digits, signed, -, rfl⟩ :=
    exists_of_ofNumeral (isNumberCharacter_of_pointed wholeDigits fractionDigits) read
  rw [parts, signed_of_digits (by simp [nonempty]) all] at signed
  rw [parts, ← Except.ok.inj signed, toRat, Digits.decode_append]
  have power : (10 : ℚ) ^ fraction.length ≠ 0 := by positivity
  push_cast
  rw [zpow_neg, zpow_natCast, ← div_eq_mul_inv, add_div, mul_div_cancel_right₀ _ power]

end Decimal

theorem SameFraction.toRat_eq {left right : List Char} (same : SameFraction left right) :
    (Digits.decode left : ℚ) / 10 ^ left.length = Digits.decode right / 10 ^ right.length := by
  rw [div_eq_div_iff (by positivity) (by positivity)]
  exact_mod_cast same.value

namespace Twins

variable {left right : List Char}

/-- Numerals that are twins are the same, or they end in equal fractions. -/
theorem eq_or_pointed (twins : Twins left right) (leftPoints : left.count '.' ≤ 1)
    (rightPoints : right.count '.' ≤ 1)
    (characters : ∀ character ∈ left, isNumberCharacter character = true) :
    left = right ∨ ∃ whole first second, left = whole ++ pointed first ∧
      right = whole ++ pointed second ∧ SameFraction first second ∧ whole ≠ [] ∧
        ∀ character ∈ whole, character.isDigit = true := by
  have unpointed {first : List Char} (absent : (pointed first).count '.' = 0) :
      pointed first = [] := by
    by_contra nonempty
    cases first with
    | nil => exact nonempty rfl
    | cons => simp [pointed] at absent
  induction twins with
  | nil => exact .inl rfl
  | @cons character left right others ih =>
      rw [List.forall_mem_cons] at characters
      rw [List.count_cons] at leftPoints rightPoints
      obtain rfl | ⟨whole, first, second, rfl, rfl, same, nonempty, digits⟩ :=
        ih (by omega) (by omega) characters.2
      · exact .inl rfl
      rcases (isNumberCharacter_iff character).mp characters.1 with digit | rfl
      · refine .inr ⟨character :: whole, first, second, rfl, rfl, same, by simp, ?_⟩
        exact List.forall_mem_cons.mpr ⟨digit, digits⟩
      · -- A point in front leaves none for the fractions.
        simp only [List.count_append, beq_self_eq_true, if_true] at leftPoints rightPoints
        rw [unpointed (by omega : (pointed first).count '.' = 0),
          unpointed (by omega : (pointed second).count '.' = 0)]
        exact .inl rfl
  | @fraction digit first second left right whole same ends others ih =>
      cases left with
      | nil =>
          obtain rfl := others.eq_nil_iff.mp rfl
          rw [List.append_nil, List.append_nil]
          exact .inr ⟨[digit], first, second, rfl, rfl, same, by simp, by simpa using whole⟩
      | cons next left =>
          -- What follows can only be a point, so the fractions have none.
          obtain ⟨right, rfl⟩ := List.head?_eq_some_iff.mp (others.head?_eq.symm.trans rfl)
          rw [List.forall_mem_cons, List.forall_mem_append] at characters
          obtain ⟨-, -, later⟩ := characters
          have noDigit : next.isDigit = false := ends next rfl
          have point := (isNumberCharacter_iff next).mp (later next List.mem_cons_self)
          obtain rfl := point.resolve_left (by simp [noDigit])
          simp only [List.count_cons, List.count_append, beq_self_eq_true,
            if_true] at leftPoints rightPoints
          rw [unpointed (by omega : (pointed first).count '.' = 0),
            unpointed (by omega : (pointed second).count '.' = 0)]
          obtain same | ⟨whole, first, second, start, -, -, nonempty, digits⟩ :=
            ih (by simp; omega) (by simp; omega) later
          · exact .inl (congrArg (digit :: ·) same)
          · obtain ⟨leading, rest, rfl⟩ := List.exists_cons_of_ne_nil nonempty
            obtain ⟨rfl, -⟩ := List.cons.inj start
            exact absurd (digits '.' List.mem_cons_self) (by decide)

/-- Numerals that are twins are read as decimals of one number. -/
theorem sameNumber (twins : Twins left right)
    (leftCharacters : ∀ character ∈ left, isNumberCharacter character = true)
    (rightCharacters : ∀ character ∈ right, isNumberCharacter character = true)
    {first second : Decimal} (leftRead : Decimal.ofNumeral left = .ok first)
    (rightRead : Decimal.ofNumeral right = .ok second) : SameNumber first second := by
  obtain rfl | ⟨whole, fraction, other, rfl, rfl, same, nonempty, digits⟩ := twins.eq_or_pointed
    (Decimal.count_point_le_one leftCharacters leftRead)
    (Decimal.count_point_le_one rightCharacters rightRead) leftCharacters
  · exact congrArg Decimal.toRat (Except.ok.inj (leftRead.symm.trans rightRead))
  · rw [SameNumber, Decimal.toRat_of_pointed nonempty digits same.leftDigits leftRead,
      Decimal.toRat_of_pointed nonempty digits same.rightDigits rightRead, same.toRat_eq]

end Twins

/-! ## Tokens -/

namespace Token

/-- Whether the first of some tokens is at a position. -/
def StartAt (position : Nat) (tokens : List Token) : Prop :=
  ∃ token ∈ tokens.head?, token.position = position

/-- Puts a run of digits and points in front of the tokens after it. -/
def attachRun (position : Nat) (first : Char) (run : List Char) : List Token → List Token
  | [] => [⟨.number, first, run, position⟩]
  | next :: later =>
    if joins .number (position + run.length) next then
      ⟨.number, first, run ++ next.text, position⟩ :: later
    else
      ⟨.number, first, run, position⟩ :: next :: later

theorem attach_eq_attachRun {first : Char} (number : isNumberCharacter first = true)
    (position : Nat) (tokens : List Token) :
    attach (first, position) tokens = attachRun position first [] tokens := by
  have kind : TokenKind.ofCharacter first = .number :=
    (TokenKind.ofCharacter_eq_number_iff first).mpr number
  have visible : isSpacing first = false := not_isSpacing_of_kind (by rw [kind]; exact nofun)
  cases tokens with
  | nil => rw [attach_apart visible (by simp), kind, attachRun]
  | cons next later =>
      rw [attachRun, List.length_nil, Nat.add_zero]
      split
      case isTrue joined => rw [attach_joins visible (kind ▸ joined), kind, List.nil_append]
      case isFalse apart =>
        rw [attach_apart visible (by simpa [kind] using apart), kind]

theorem attachRun_cons (position : Nat) (first second : Char) (run : List Char)
    (tokens : List Token) :
    attachRun position first [] (attachRun (position + 1) second run tokens) =
      attachRun position first (second :: run) tokens := by
  have joined (tail : List Char) (later : List Token) :
      attachRun position first [] (⟨.number, second, tail, position + 1⟩ :: later) =
        ⟨.number, first, second :: tail, position⟩ :: later := by simp [attachRun, joins, text]
  have places : position + (second :: run).length = position + 1 + run.length := by
    rw [List.length_cons]
    omega
  cases tokens with
  | nil => exact joined run []
  | cons next later =>
      rw [attachRun, attachRun, places]
      split
      · exact joined _ later
      · exact joined run (next :: later)

/-- A run of digits and points in front of a text. -/
theorem scanFrom_digits (position : Nat) {first : Char} {run : List Char}
    (all : ∀ character ∈ first :: run, isNumberCharacter character = true) (rest : List Char) :
    scanFrom position (first :: (run ++ rest)) =
      attachRun position first run (scanFrom (position + 1 + run.length) rest) := by
  induction run generalizing position first with
  | nil =>
      rw [List.nil_append, scanFrom_cons, attach_eq_attachRun (all first List.mem_cons_self)]
      rfl
  | cons second run ih =>
      rw [List.forall_mem_cons] at all
      rw [List.cons_append, scanFrom_cons, attach_eq_attachRun all.1, ih (position + 1) all.2,
        attachRun_cons, List.length_cons, Nat.add_assoc (position + 1), Nat.add_comm 1]

variable {left right : List Token} {position other : Nat}

theorem Corresponds.joins_eq {left right : Token} (corresponds : Corresponds Twins left right)
    (starts : left.position = position + 1 ↔ right.position = other + 1) (kind : TokenKind) :
    joins kind position left = joins kind other right := by
  rw [joins, joins, corresponds.kind]
  congr 1
  rwa [Bool.eq_iff_iff, beq_iff_eq, beq_iff_eq]

theorem Corresponds.twins {left right : Token} (corresponds : Corresponds Twins left right) :
    Twins left.text right.text := by
  cases corresponds with
  | number _ _ _ _ texts => exact texts
  | other _ _ texts => exact texts ▸ .refl _

theorem kind_of_joins {kind : TokenKind} {next : Token} (joined : joins kind position next = true) :
    kind = next.kind := by
  simp only [joins, Bool.and_eq_true, beq_iff_eq] at joined
  exact joined.1.2.symm

/-- Tokens of one kind whose texts are twins, or the same where they are no numbers. -/
theorem corresponds_of_twins {left right : Token} (leftFormed : left.WellFormed)
    (rightFormed : right.WellFormed) (kinds : left.kind = right.kind)
    (twins : Twins left.text right.text) (texts : left.kind ≠ .number → left.text = right.text) :
    Corresponds Twins left right := by
  by_cases number : left.kind = .number
  · exact .number leftFormed rightFormed number (kinds.symm.trans number) twins
  · exact .other kinds number (texts number)

/-- A character in front of corresponding tokens. -/
theorem rows_attach (character : Char) (rows : Rows Twins left right)
    (starts : StartAt (position + 1) left ↔ StartAt (other + 1) right)
    (leftFormed : ∀ token ∈ attach (character, position) left, token.WellFormed)
    (rightFormed : ∀ token ∈ attach (character, other) right, token.WellFormed) :
    Rows Twins (attach (character, position) left) (attach (character, other) right) := by
  cases spacing : isSpacing character with
  | true => rwa [attach_spacing spacing, attach_spacing spacing]
  | false =>
      cases rows with
      | nil =>
          rw [attach_apart spacing (by simp)] at leftFormed
          rw [attach_apart spacing (by simp)] at rightFormed
          rw [attach_apart spacing (by simp), attach_apart spacing (by simp)]
          exact .cons (corresponds_of_twins (leftFormed _ List.mem_cons_self)
            (rightFormed _ List.mem_cons_self) rfl (.refl _) fun _ => rfl) .nil
      | @cons next second later others corresponds rows =>
          have same : joins (.ofCharacter character) position next =
              joins (.ofCharacter character) other second :=
            corresponds.joins_eq (by simpa [StartAt] using starts) _
          cases joined : joins (.ofCharacter character) position next with
          | true =>
              have otherJoined := same.symm.trans joined
              rw [attach_joins spacing joined] at leftFormed
              rw [attach_joins spacing otherJoined] at rightFormed
              rw [attach_joins spacing joined, attach_joins spacing otherJoined]
              exact .cons (corresponds_of_twins (leftFormed _ List.mem_cons_self)
                (rightFormed _ List.mem_cons_self) rfl (.cons character corresponds.twins)
                fun noNumber => congrArg (character :: ·)
                  (corresponds.text_eq (kind_of_joins joined ▸ noNumber))) rows
          | false =>
              have apart : ∀ token ∈ (next :: later).head?,
                  joins (.ofCharacter character) position token = false := by simpa using joined
              have otherApart : ∀ token ∈ (second :: others).head?,
                  joins (.ofCharacter character) other token = false := by
                simpa using same.symm.trans joined
              rw [attach_apart spacing apart] at leftFormed
              rw [attach_apart spacing otherApart] at rightFormed
              rw [attach_apart spacing apart, attach_apart spacing otherApart]
              exact .cons (corresponds_of_twins (leftFormed _ List.mem_cons_self)
                (rightFormed _ List.mem_cons_self) rfl (.refl _) fun _ => rfl)
                (.cons corresponds rows)

/-- Equal fractions in front of corresponding tokens. -/
theorem rows_attachRun {digit : Char} {first second : List Char} (whole : digit.isDigit = true)
    (same : SameFraction first second) (rows : Rows Twins left right)
    (starts : StartAt (position + (pointed first).length + 1) left ↔
      StartAt (other + (pointed second).length + 1) right)
    (ends : ∀ next ∈ left.head?, next.position = position + (pointed first).length + 1 →
      EndsNumber next.text)
    (leftFormed : ∀ token ∈ attachRun position digit (pointed first) left, token.WellFormed)
    (rightFormed : ∀ token ∈ attachRun other digit (pointed second) right, token.WellFormed) :
    Rows Twins (attachRun position digit (pointed first) left)
      (attachRun other digit (pointed second) right) := by
  have alone : Twins (digit :: pointed first) (digit :: pointed second) := by
    simpa using Twins.fraction whole same (by simp [EndsNumber]) .nil
  cases rows with
  | nil =>
      rw [attachRun] at leftFormed rightFormed
      exact .cons (.number (leftFormed _ List.mem_cons_self) (rightFormed _ List.mem_cons_self)
        rfl rfl alone) .nil
  | @cons next another later others corresponds rows =>
      have joins_eq : joins .number (position + (pointed first).length) next =
          joins .number (other + (pointed second).length) another :=
        corresponds.joins_eq (by simpa [StartAt] using starts) _
      rw [attachRun] at leftFormed ⊢
      rw [attachRun, ← joins_eq] at rightFormed ⊢
      split at leftFormed
      case isTrue joined =>
        rw [if_pos joined] at rightFormed ⊢
        rw [if_pos joined]
        have adjacent : next.position = position + (pointed first).length + 1 := by
          simp only [joins, Bool.and_eq_true, beq_iff_eq] at joined
          exact joined.2
        exact .cons (.number (leftFormed _ List.mem_cons_self) (rightFormed _ List.mem_cons_self)
          rfl rfl (.fraction whole same (ends next rfl adjacent) corresponds.twins)) rows
      case isFalse apart =>
        rw [if_neg apart] at rightFormed ⊢
        rw [if_neg apart]
        exact .cons (.number (leftFormed _ List.mem_cons_self) (rightFormed _ List.mem_cons_self)
          rfl rfl alone) (.cons corresponds rows)

/-- A text begins with a token unless it begins with spacing. -/
theorem startAt_scanFrom_cons (position : Nat) (character : Char) (rest : List Char) :
    StartAt position (scanFrom position (character :: rest)) ↔ isSpacing character = false := by
  rw [scanFrom_cons]
  rcases attach_cases character position (scanFrom (position + 1) rest) with
    ⟨spacing, same⟩ | ⟨visible, next, others, -, -, -, -, joined⟩ | ⟨visible, apart⟩
  · rw [same]
    refine ⟨fun ⟨token, first, here⟩ => ?_, fun visible => nomatch spacing.symm.trans visible⟩
    have later := position_le_of_mem rest (position + 1) token (List.mem_of_mem_head? first)
    omega
  · simp [joined, visible, StartAt]
  · simp [apart, visible, StartAt]

/-- A token at the beginning of a text begins with the same character. -/
theorem head?_text_of_startAt {input : List Char} {position : Nat} {next : Token}
    (first : next ∈ (scanFrom position input).head?) (start : next.position = position) :
    next.text.head? = input.head? := by
  obtain ⟨later, found⟩ := List.head?_eq_some_iff.mp first
  obtain ⟨rest, rfl, -⟩ := (spaced_scanFrom input position).2 next later found start
  rfl

end Token

namespace Twins

open Token

variable {left right : List Char}

/-- Twins have corresponding tokens, which begin at once or later. -/
theorem rows_scanFrom (twins : Twins left right) (position other : Nat) :
    Rows Twins (scanFrom position left) (scanFrom other right) ∧
      (StartAt position (scanFrom position left) ↔ StartAt other (scanFrom other right)) := by
  induction twins generalizing position other with
  | nil => exact ⟨.nil, by simp [StartAt]⟩
  | @cons character left right others ih =>
      obtain ⟨rows, starts⟩ := ih (position + 1) (other + 1)
      refine ⟨rows_attach character rows starts (wellFormed_scanFrom (character :: left) position)
        (wellFormed_scanFrom (character :: right) other), ?_⟩
      rw [startAt_scanFrom_cons, startAt_scanFrom_cons]
  | @fraction digit first second left right whole same ends others ih =>
      obtain ⟨rows, starts⟩ :=
        ih (position + 1 + (pointed first).length) (other + 1 + (pointed second).length)
      have formed := wellFormed_scanFrom (digit :: (pointed first ++ left)) position
      have otherFormed := wellFormed_scanFrom (digit :: (pointed second ++ right)) other
      have single : ∀ character ∈ [digit], character.isDigit = true := by simpa using whole
      have digits : ∀ character ∈ digit :: pointed first, isNumberCharacter character = true :=
        Decimal.isNumberCharacter_of_pointed single same.leftDigits
      have otherDigits : ∀ character ∈ digit :: pointed second,
          isNumberCharacter character = true :=
        Decimal.isNumberCharacter_of_pointed single same.rightDigits
      rw [startAt_scanFrom_cons, startAt_scanFrom_cons, scanFrom_digits position digits,
        scanFrom_digits other otherDigits]
      rw [scanFrom_digits position digits] at formed
      rw [scanFrom_digits other otherDigits] at otherFormed
      refine ⟨rows_attachRun whole same rows ?_ ?_ formed otherFormed, Iff.rfl⟩
      · rwa [Nat.add_right_comm position, Nat.add_right_comm other]
      · intro next found start
        rw [EndsNumber, head?_text_of_startAt found (by omega)]
        exact ends

theorem rows (twins : Twins left right) : Rows Twins (scan left) (scan right) :=
  (twins.rows_scanFrom 0 0).1

end Twins

/-! ## Margins -/

theorem rdropWhile_cons (character : Char) (text : List Char) :
    (character :: text).rdropWhile isBlank =
      if text.rdropWhile isBlank = [] ∧ isBlank character = true then []
      else character :: text.rdropWhile isBlank := by
  rw [List.rdropWhile, List.reverse_cons, List.dropWhile_append, List.rdropWhile]
  simp only [List.isEmpty_iff, List.reverse_eq_nil_iff]
  by_cases empty : text.reverse.dropWhile isBlank = []
  · cases blank : isBlank character <;> simp [empty, blank]
  · simp [empty]

/-- Visible characters stop the trimming of what follows them. -/
theorem rdropWhile_append {front : List Char}
    (visible : ∀ character ∈ front, isBlank character = false) (text : List Char) :
    (front ++ text).rdropWhile isBlank = front ++ text.rdropWhile isBlank := by
  induction front with
  | nil => rfl
  | cons character front ih =>
      rw [List.forall_mem_cons] at visible
      rw [List.cons_append, rdropWhile_cons, visible.1, ih visible.2]
      simp

namespace Twins

variable {left right : List Char}

theorem dropWhile (twins : Twins left right) :
    Twins (left.dropWhile isBlank) (right.dropWhile isBlank) := by
  induction twins with
  | nil => exact .nil
  | @cons character left right others ih =>
      rw [List.dropWhile_cons, List.dropWhile_cons]
      split
      · exact ih
      · exact .cons character others
  | @fraction digit first second left right whole same ends others ih =>
      have visible : isBlank digit = false :=
        not_isBlank_of_isNumberCharacter (by simp [isNumberCharacter, whole])
      rw [List.dropWhile_cons_of_neg (by simp [visible]),
        List.dropWhile_cons_of_neg (by simp [visible])]
      exact .fraction whole same ends others

theorem endsNumber_rdropWhile (ends : EndsNumber left) :
    EndsNumber (left.rdropWhile isBlank) := by
  obtain ⟨rest, split⟩ := List.rdropWhile_prefix isBlank left
  intro next first
  obtain ⟨later, found⟩ := List.head?_eq_some_iff.mp first
  refine ends next ?_
  rw [← split, found]
  rfl

theorem rdropWhile (twins : Twins left right) :
    Twins (left.rdropWhile isBlank) (right.rdropWhile isBlank) := by
  induction twins with
  | nil => exact .nil
  | @cons character left right others ih =>
      rw [rdropWhile_cons, rdropWhile_cons]
      simp only [ih.eq_nil_iff]
      split
      · exact .nil
      · exact .cons character ih
  | @fraction digit first second left right whole same ends others ih =>
      have single : ∀ character ∈ [digit], character.isDigit = true := by simpa using whole
      have stops {fraction : List Char}
          (digits : ∀ character ∈ fraction, character.isDigit = true) (text : List Char) :
          (digit :: (pointed fraction ++ text)).rdropWhile isBlank =
            digit :: (pointed fraction ++ text.rdropWhile isBlank) :=
        rdropWhile_append (fun character member => not_isBlank_of_isNumberCharacter
          (Decimal.isNumberCharacter_of_pointed single digits character member)) text
      rw [stops same.leftDigits, stops same.rightDigits]
      exact .fraction whole same (endsNumber_rdropWhile ends) ih

/-- Without margins twins are twins. -/
theorem trim (twins : Twins left right) : Twins (trim left) (trim right) :=
  twins.dropWhile.rdropWhile

end Twins

/-! ## Decimals -/

/-- Whether two texts can stand for each other before everything but a digit. -/
def Twins.Values (first second : List Char) : Prop :=
  ∀ left right, EndsNumber left → Twins left right → Twins (first ++ left) (second ++ right)

theorem Twins.Values.refl (text : List Char) : Values text text := fun _ _ _ twins =>
  twins.append text

namespace Decimal

variable {number other : Decimal}

/-- A decimal that is not negative is written as a whole and a fraction. -/
theorem exists_plainDigits (nonneg : 0 ≤ number.digits) (shown : number.Shows) :
    ∃ whole fraction, number.plainDigits = Digits.ofNat whole ++ pointed fraction ∧
      (∀ character ∈ fraction, character.isDigit = true) ∧
        number.toRat = whole + Digits.decode fraction / 10 ^ fraction.length := by
  rw [plainDigits]
  split
  case isTrue low =>
    have factor : 0 ≤ number.digits * (tenPower (-number.scale).toNat : Int) :=
      Int.mul_nonneg nonneg (Int.natCast_nonneg _)
    rw [shiftFactor_of_shows shown]
    refine ⟨(number.digits * (tenPower (-number.scale).toNat : Int)).natAbs, [], ?_, by simp, ?_⟩
    · dsimp only
      rw [integerText, if_neg (by omega), pointed, List.append_nil]
    · rw [toRat, ← Int.cast_natCast, Int.natAbs_of_nonneg factor, Int.cast_mul, Int.cast_natCast,
        cast_tenPower (by omega)]
      simp [Digits.decode]
  case isFalse high =>
    obtain ⟨fraction, written, length, digits, value⟩ :=
      pointText_eq number.digits.natAbs number.scale.toNat
    have filled : fraction ≠ [] := by
      rintro rfl
      rw [List.length_nil] at length
      omega
    refine ⟨number.digits.natAbs / 10 ^ number.scale.toNat, fraction, ?_, digits, ?_⟩
    · dsimp only
      rw [if_neg (by omega), written, pointed_of_ne_nil filled]
    · have split := Nat.div_add_mod number.digits.natAbs (10 ^ number.scale.toNat)
      have cast : (number.digits : ℚ) = (number.digits.natAbs : Nat) := by
        rw [← Int.cast_natCast, Int.natAbs_of_nonneg nonneg]
      have power : (10 : ℚ) ^ (-number.scale) = 1 / 10 ^ number.scale.toNat := by
        rw [zpow_neg, ← zpow_natCast, Int.toNat_of_nonneg (by omega), one_div]
      rw [toRat, value, length, power, cast]
      conv_lhs => rw [← split]
      push_cast
      field_simp

/-- A number has one whole and one fraction. -/
theorem eq_and_sameFraction {whole second : Nat} {fraction rest : List Char}
    (digits : ∀ character ∈ fraction, character.isDigit = true)
    (restDigits : ∀ character ∈ rest, character.isDigit = true)
    (same : (whole : ℚ) + Digits.decode fraction / 10 ^ fraction.length =
      second + Digits.decode rest / 10 ^ rest.length) :
    whole = second ∧ SameFraction fraction rest := by
  have part {digits : List Char} (all : ∀ character ∈ digits, character.isDigit = true) :
      (0 : ℚ) ≤ Digits.decode digits / 10 ^ digits.length ∧
        (Digits.decode digits : ℚ) / 10 ^ digits.length < 1 := by
    refine ⟨by positivity, ?_⟩
    rw [div_lt_one (by positivity)]
    exact_mod_cast Digits.decode_lt all
  obtain ⟨low, high⟩ := part digits
  obtain ⟨restLow, restHigh⟩ := part restDigits
  have below : (whole : ℚ) < second + 1 := by linarith
  have above : (second : ℚ) < whole + 1 := by linarith
  norm_cast at below above
  obtain rfl : whole = second := by omega
  refine ⟨rfl, digits, restDigits, ?_⟩
  rw [add_right_inj, div_eq_div_iff (by positivity) (by positivity)] at same
  exact_mod_cast same

theorem values_plainDigits_of_nonneg (same : SameNumber number other) (nonneg : 0 ≤ number.digits)
    (otherNonneg : 0 ≤ other.digits) (shown : number.Shows) (otherShown : other.Shows) :
    Twins.Values number.plainDigits other.plainDigits := by
  obtain ⟨whole, fraction, written, digits, value⟩ := exists_plainDigits nonneg shown
  obtain ⟨second, rest, otherWritten, restDigits, otherValue⟩ :=
    exists_plainDigits otherNonneg otherShown
  rw [SameNumber, value, otherValue] at same
  obtain ⟨rfl, fractions⟩ := eq_and_sameFraction digits restDigits same
  obtain ⟨front, last, split⟩ :=
    (List.eq_nil_or_concat' (Digits.ofNat whole)).resolve_left (Digits.ofNat_ne_nil whole)
  have lastDigit : last.isDigit = true :=
    Digits.isDigit_of_mem_ofNat whole last (by simp [split])
  intro left right ends twins
  have tail := (Twins.fraction lastDigit fractions ends twins).append front
  rw [written, otherWritten, split]
  simpa using tail

/-- Decimals of one number are written alike but for the end of the fraction. -/
theorem values_plainDigits (same : SameNumber number other) (shown : number.Shows)
    (otherShown : other.Shows) : Twins.Values number.plainDigits other.plainDigits := by
  by_cases negative : number.digits < 0
  · have otherNegative := (digits_neg_iff_of_toRat_eq same).mp negative
    have opposite : SameNumber (-number) (-other) := by
      rw [SameNumber, toRat_neg, toRat_neg, show number.toRat = other.toRat from same]
    rw [plainDigits_of_neg negative shown, plainDigits_of_neg otherNegative otherShown]
    intro left right ends twins
    exact .cons '-' (values_plainDigits_of_nonneg opposite
      (Int.neg_nonneg_of_nonpos negative.le) (Int.neg_nonneg_of_nonpos otherNegative.le) shown
      otherShown left right ends twins)
  · have otherNonneg := (digits_neg_iff_of_toRat_eq same).not.mp negative
    exact values_plainDigits_of_nonneg same (not_lt.mp negative) (not_lt.mp otherNonneg) shown
      otherShown

end Decimal

end Reckoner
