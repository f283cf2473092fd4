import Mathlib.Data.List.Nodup
import Reckoner.Proofs.Margins

/-!
# Parameters that are mentioned

The words of a text are its maximal runs of word characters.  A name is replaced only where it is
the whole of a word, so of all parameters only those matter that are words of the expression: bags
that agree on these lead to the same calculation, step by step (`calculate_eq_of_agree`).  Inside a
block both sides bind the same names to the same values, and that keeps the agreement, whatever
characters the new names have (`Bag.Similar.insert`).
-/

namespace Reckoner

/-! ## The words of a text -/

/--
The words of a text, in their order.  The first argument says whether the text is the rest of a
word.
-/
def wordsAfter : Bool → List Char → List (List Char)
  | _, [] => []
  | inside, character :: rest =>
    if isWordCharacter character && !inside then
      (character :: rest.takeWhile isWordCharacter) :: wordsAfter true rest
    else
      wordsAfter (isWordCharacter character) rest

/-- The maximal runs of word characters of a text, in their order. -/
def words (text : List Char) : List (List Char) := wordsAfter false text

section Words

variable {inside : Bool} {character : Char} {left right rest : List Char}

theorem wordsAfter_cons_of_not (outside : isWordCharacter character = false) :
    wordsAfter inside (character :: rest) = words rest := by
  rw [wordsAfter, outside]
  simp [words]

/-- No word goes on into a text that does not begin with a word character. -/
theorem wordsAfter_of_ends (ends : inWord right.head? = false) :
    wordsAfter inside right = words right := by
  cases right with
  | nil => rw [words, wordsAfter, wordsAfter]
  | cons character rest =>
      have outside : isWordCharacter character = false := ends
      rw [words, wordsAfter_cons_of_not outside, wordsAfter_cons_of_not outside]

theorem takeWhile_append_of_ends (ends : inWord right.head? = false) (left : List Char) :
    (left ++ right).takeWhile isWordCharacter = left.takeWhile isWordCharacter := by
  induction left with
  | nil =>
      cases right with
      | nil => rfl
      | cons character rest =>
          have outside : isWordCharacter character = false := ends
          rw [List.nil_append, List.takeWhile_cons, outside]
          rfl
  | cons character left ih => rw [List.cons_append, List.takeWhile_cons, List.takeWhile_cons, ih]

theorem wordsAfter_append (ends : inWord right.head? = false) (left : List Char) :
    wordsAfter inside (left ++ right) = wordsAfter inside left ++ words right := by
  induction left generalizing inside with
  | nil => rw [List.nil_append, wordsAfter_of_ends ends, wordsAfter, List.nil_append]
  | cons character left ih =>
      rw [List.cons_append, wordsAfter, wordsAfter, takeWhile_append_of_ends ends, ih, ih]
      split
      · rw [List.cons_append]
      · rfl

/-- Where no word goes on, the words of two parts are those of the whole. -/
theorem words_append (ends : inWord right.head? = false) (left : List Char) :
    words (left ++ right) = words left ++ words right := wordsAfter_append ends left

theorem words_append_cons (outside : isWordCharacter character = false) (left rest : List Char) :
    words (left ++ character :: rest) = words left ++ words rest := by
  have ends : inWord (character :: rest).head? = false := outside
  have skipped : words (character :: rest) = words rest := wordsAfter_cons_of_not outside
  rw [words_append ends, skipped]

theorem words_of_outside (outside : ∀ character ∈ left, isWordCharacter character = false)
    (rest : List Char) : words (left ++ rest) = words rest := by
  induction left with
  | nil => rfl
  | cons character left ih =>
      rw [List.forall_mem_cons] at outside
      rw [List.cons_append, words, wordsAfter_cons_of_not outside.1, ih outside.2]

/-- The margins of a text have no words. -/
theorem words_trim (text : List Char) : words (trim text) = words text := by
  obtain ⟨front, back, whole, before, after⟩ := exists_margins text
  have none : words back = [] := by
    have skipped := words_of_outside
      (fun character member => not_isWordCharacter_of_isBlank (after character member)) []
    rw [List.append_nil] at skipped
    exact skipped
  have skipped := words_of_outside
    (fun character member => not_isWordCharacter_of_isBlank (before character member))
    (trim text ++ back)
  rw [words_append (ends_of_isBlank after).1, none, List.append_nil, ← List.append_assoc,
    ← whole] at skipped
  exact skipped.symm

/-- A part of a text between two separators has words of the text only. -/
theorem words_subset_of_mem_splitAtEach (outside : isWordCharacter character = false)
    {text part : List Char} (member : part ∈ splitAtEach character text) :
    words part ⊆ words text := by
  have joined (parts : List (List Char)) :
      words ([character].intercalate parts) = parts.flatMap words := by
    induction parts with
    | nil => rfl
    | cons first parts ih =>
        cases parts with
        | nil => simp [List.intercalate]
        | cons second later =>
            rw [List.intercalate_cons_cons, List.append_assoc, List.singleton_append,
              words_append_cons outside, ih]
            exact List.flatMap_cons.symm
  rw [← intercalate_splitAtEach character text, joined]
  exact fun word found => List.mem_flatMap.mpr ⟨part, member, found⟩

end Words

/-! ## The words of a statement -/

namespace Statement

/-- The text that a statement evaluates, or that its function does. -/
def source : Statement → String
  | answer expression => expression
  | assignment _ expression => expression
  | definition function => function.body

variable {text : List Char}

theorem words_afterReturn? {rest : List Char} (found : afterReturn? text = some rest) :
    words rest ⊆ words text := by
  rw [afterReturn?] at found
  split at found
  case isFalse => cases found
  case isTrue begins =>
    obtain ⟨remaining, split⟩ := List.isPrefixOf_iff_prefix.mp begins
    rw [← split, List.drop_left] at found
    dsimp only at found
    split at found
    case isTrue => cases found
    case isFalse apart =>
      obtain rfl := Option.some.inj found
      have ends : inWord remaining.head? = false := by
        cases remaining with
        | nil => rfl
        | cons character rest =>
            rw [Bool.eq_false_iff]
            intro word
            exact apart (extendsKeyword_of_isWordCharacter word)
      rw [← split, words_append ends]
      exact List.subset_append_right _ _

theorem words_source_of_binding {statement : Statement} (bound : binding text = .ok statement) :
    words statement.source.toList ⊆ words text := by
  rw [binding] at bound
  split at bound
  case h_2 => cases bound
  case h_1 left right sides =>
    have member : right ∈ splitAtEach '=' text := by simp [sides]
    have inside : words (trim right) ⊆ words text := by
      rw [words_trim]
      exact words_subset_of_mem_splitAtEach (by decide) member
    dsimp only at bound
    split at bound
    case isTrue => cases bound
    case isFalse =>
      split at bound
      case isFalse =>
        obtain rfl := Except.ok.inj bound
        simpa [source] using inside
      case isTrue =>
        obtain ⟨function, read, made⟩ := exists_of_bind_eq_ok bound
        obtain rfl := Except.ok.inj made
        rw [LocalFunction.ofTexts] at read
        split at read
        case h_1 => cases read
        case h_2 =>
          obtain ⟨_, -, built⟩ := exists_of_bind_eq_ok read
          obtain rfl := Except.ok.inj built
          simpa [source, words_trim] using inside

/-- What a statement evaluates has words of its text only. -/
theorem words_source {statement : Statement} (read : ofText? text = .ok (some statement)) :
    words statement.source.toList ⊆ words text := by
  rw [← words_trim text]
  rw [ofText?] at read
  split at read
  case isTrue => cases read
  case isFalse =>
    split at read
    case h_1 expression found =>
      obtain rfl := Option.some.inj (Except.ok.inj read)
      simpa [source, words_trim] using words_afterReturn? found
    case h_2 =>
      obtain ⟨bound, found, same⟩ := exists_of_bind_eq_ok read
      obtain rfl := Option.some.inj (Except.ok.inj same)
      exact words_source_of_binding found

end Statement

/-! ## Bags that are similar -/

/-- Whether a name fits at the front of a text, at a place that is a word edge. -/
def fitsAt (text : List Char) (name : String) : Bool := Candidate.fits ⟨name.toList, []⟩ text

/-- Binding a name changes what is found only in the entry of the name. -/
theorem Bindings.find?_assign {α : Type} (fits : String → Bool) (name : String) (value : α)
    (entries : List (String × α)) :
    ((assign name value entries).find? fun entry => fits entry.1) =
      match entries.find? fun entry => fits entry.1 with
      | some (other, old) => some (other, if other = name then value else old)
      | none => if fits name then some (name, value) else none := by
  induction entries with
  | nil => cases here : fits name <;> simp [assign, here]
  | cons entry rest ih =>
      obtain ⟨other, old⟩ := entry
      rw [assign]
      by_cases same : other = name
      · subst same
        cases here : fits other with
        | true => simp [here]
        | false =>
            simp only [if_true, List.find?_cons, here]
            cases found : rest.find? fun entry => fits entry.1 with
            | none => simp
            | some entry =>
                have apart : entry.1 ≠ other := by
                  rintro rfl
                  exact absurd (List.find?_some found) (by simp [here])
                simp [apart]
      · rw [if_neg same]
        cases here : fits other with
        | true => simp [here, same]
        | false => simp only [List.find?_cons, here, ih]

namespace Bag

/--
Whether the same entry is found in two bags wherever a word of the vocabulary, or none, begins.
-/
def Similar (vocabulary : List (List Char)) (first second : Bag) : Prop :=
  ∀ text : List Char, text.takeWhile isWordCharacter ∈ [] :: vocabulary →
    (first.entries.find? fun entry => fitsAt text entry.1) =
      second.entries.find? fun entry => fitsAt text entry.1

namespace Similar

variable {vocabulary : List (List Char)} {first second : Bag}

theorem insert (similar : Similar vocabulary first second) (name : String)
    (value : Option Decimal) :
    Similar vocabulary (first.insert name value) (second.insert name value) := by
  intro text known
  have same := similar text known
  rw [Bindings.insert, Bindings.insert, Bindings.find?_assign, Bindings.find?_assign, same]

theorem insertAll (similar : Similar vocabulary first second)
    (entries : List (String × Option Decimal)) :
    Similar vocabulary (first.insertAll entries) (second.insertAll entries) := by
  induction entries generalizing first second with
  | nil => exact similar
  | cons entry entries ih => exact ih (similar.insert entry.1 entry.2)

end Similar
end Bag

/-! ## Resolving -/

/-- Whether no word of a vocabulary stands for all parameters at once. -/
def LacksAll (vocabulary : List (List Char)) : Prop :=
  ∀ word ∈ vocabulary, foldCase word ≠ foldCase Candidate.allName.toList

section Resolving

variable {vocabulary : List (List Char)} {first second : Bag}
  (similar : Bag.Similar vocabulary first second) (lacks : LacksAll vocabulary)
  (pi euler : List Char)

include similar lacks

/-- At the edge of a known word the same candidate is found. -/
theorem Candidate.find?_all_congr {text : List Char}
    (known : text.takeWhile isWordCharacter ∈ [] :: vocabulary) :
    ((all first pi euler).find? fun candidate => candidate.fits text) =
      (all second pi euler).find? fun candidate => candidate.fits text := by
  have bound (bag : Bag) :
      ((bag.entries.map fun entry =>
          (⟨entry.1.toList, parameterText entry.2⟩ : Candidate)).find? fun candidate =>
        candidate.fits text) =
      (bag.entries.find? fun entry => fitsAt text entry.1).map fun entry =>
        ⟨entry.1.toList, parameterText entry.2⟩ := List.find?_map
  have noAll (value : List Char) : (⟨allName.toList, value⟩ : Candidate).fits text = false := by
    have word : IsWord ⟨allName.toList, value⟩ := isWord_of_isIdentifier (by decide +kernel) value
    have ends : inWord (text.dropWhile isWordCharacter).head? = false := by
      cases found : text.dropWhile isWordCharacter with
      | nil => rfl
      | cons character rest =>
          have outside := List.head?_dropWhile_not isWordCharacter text
          rw [found] at outside
          simpa [inWord] using outside
    rw [Bool.eq_false_iff, ← List.takeWhile_append_dropWhile (p := isWordCharacter) (l := text), Ne,
      fits_iff word (fun character => List.mem_takeWhile_imp) ends]
    rintro ⟨same, -⟩
    have filled : foldCase allName.toList ≠ foldCase [] := by decide
    rcases List.mem_cons.mp known with empty | member
    · exact filled (empty ▸ same)
    · exact lacks _ member same.symm
  rw [all_eq, all_eq, List.find?_append, List.find?_append, bound, bound, similar text known]
  simp only [fixed, List.cons_append, List.nil_append, List.find?_cons, noAll]

/-- Names are replaced alike in a text of known words. -/
theorem replaceNames_congr {passing : Nat} {before : Option Char} {text : List Char}
    (known : wordsAfter (inWord before) text ⊆ vocabulary) :
    replaceNames (Candidate.all first pi euler) pi passing before text =
      replaceNames (Candidate.all second pi euler) pi passing before text := by
  induction text generalizing passing before with
  | nil => rw [replaceNames, replaceNames]
  | cons character rest ih =>
      have later : wordsAfter (inWord (some character)) rest ⊆ vocabulary := by
        rw [wordsAfter] at known
        split at known
        case isFalse => exact known
        case isTrue starts =>
          have word : inWord (some character) = true := (Bool.and_eq_true_iff.mp starts).1
          rw [word]
          exact (List.cons_subset.mp known).2
      cases passing with
      | succ passing =>
          rw [replaceNames, replaceNames]
          exact ih later
      | zero =>
          have found : Candidate.first? (Candidate.all first pi euler) before (character :: rest) =
              Candidate.first? (Candidate.all second pi euler) before (character :: rest) := by
            rw [Candidate.first?, Candidate.first?]
            split
            case isFalse => rfl
            case isTrue edge =>
              refine Candidate.find?_all_congr similar lacks pi euler ?_
              cases word : isWordCharacter character with
              | false => simp [word]
              | true =>
                  have starts : inWord before = false := by
                    simpa [isWordEdge, inWord, word] using edge
                  rw [wordsAfter, word, starts] at known
                  rw [List.takeWhile_cons_of_pos word]
                  exact List.mem_cons_of_mem _ (known List.mem_cons_self)
          rw [replaceNames, replaceNames, found]
          cases Candidate.first? (Candidate.all second pi euler) before (character :: rest) with
          | none =>
              dsimp only
              rw [ih later]
          | some candidate =>
              dsimp only
              rw [ih later]

/-- A text of known words is resolved alike, with the same record. -/
theorem Settings.resolve_congr (settings : Settings) {text : List Char}
    (known : words text ⊆ vocabulary) :
    settings.resolve first text = settings.resolve second text := by
  have same (pi euler : List Char) :
      replaceNames (Candidate.all first pi euler) pi 0 none text =
        replaceNames (Candidate.all second pi euler) pi 0 none text :=
    replaceNames_congr similar lacks pi euler known
  unfold resolve
  exact bind_congr fun pi => bind_congr fun euler => by dsimp only; rw [same]

end Resolving

/-! ## Scopes that are similar -/

/-- Whether two scopes differ only in variables that a vocabulary does not name. -/
structure Scope.Similar (vocabulary : List (List Char)) (first second : Scope) : Prop where
  /-- The same variables are found. -/
  bag : Bag.Similar vocabulary first.bag second.bag
  /-- The same functions are defined. -/
  functions : first.functions = second.functions
  /-- Their bodies have words of the vocabulary only. -/
  bodies : ∀ name function, first.functions.find? name = some function →
    words function.body.toList ⊆ vocabulary

namespace Scope.Similar

variable {vocabulary : List (List Char)} {first second : Scope}

theorem assign (similar : Similar vocabulary first second) (name : String) (value : Decimal) :
    Similar vocabulary (first.assign name value) (second.assign name value) where
  bag := similar.bag.insert name (some value)
  functions := similar.functions
  bodies := similar.bodies

theorem define (similar : Similar vocabulary first second) {function : LocalFunction}
    (known : words function.body.toList ⊆ vocabulary) :
    Similar vocabulary (first.define function) (second.define function) where
  bag := similar.bag
  functions := congrArg (Bindings.insert · function.name function) similar.functions
  bodies := forall_define similar.bodies known

variable (similar : Similar vocabulary first second) (lacks : LacksAll vocabulary) (engine : Engine)

include similar lacks

omit lacks in
/-- The same functions are called where calls do the same. -/
theorem callees_eq {levels : Nat}
    (calls : ∀ function : LocalFunction, words function.body.toList ⊆ vocabulary →
      ∀ arguments, first.call engine levels function arguments =
        second.call engine levels function arguments) :
    first.callees engine levels = second.callees engine levels := by
  funext name
  rw [Scope.callees, Scope.callees, ← similar.functions]
  cases found : first.functions.find? name with
  | none => rw [Option.map_none, Option.map_none]
  | some function =>
      have same := calls function (similar.bodies name function found)
      rw [Option.map_some, Option.map_some, funext same]

/-- A call does the same in scopes that are similar. -/
theorem call_eq {function : LocalFunction} (known : words function.body.toList ⊆ vocabulary)
    (levels : Nat) (arguments : List Decimal) :
    first.call engine levels function arguments = second.call engine levels function arguments := by
  induction levels generalizing function arguments with
  | zero => rw [Scope.call, Scope.call]
  | succ levels ih =>
      have resolved : engine.settings.resolve (first.bindings function arguments)
          function.body.toList =
            engine.settings.resolve (second.bindings function arguments) function.body.toList :=
        Settings.resolve_congr (similar.bag.insertAll _) lacks engine.settings known
      have locals : (fun name => (first.functions.find? name).map (first.call engine levels)) =
          fun name => (second.functions.find? name).map (second.call engine levels) :=
        similar.callees_eq engine fun function known arguments => ih known arguments
      rw [Scope.call, Scope.call]
      dsimp only
      rw [resolved, locals]

/-- An expression of known words has the same value in scopes that are similar. -/
theorem value_eq {expression : String} (known : words expression.toList ⊆ vocabulary) :
    first.value engine expression = second.value engine expression := by
  have lookup : first.lookup engine 0 = second.lookup engine 0 :=
    congrArg engine.lookup (similar.callees_eq engine fun _ known =>
      similar.call_eq lacks engine known engine.settings.callLimit)
  rw [Scope.value, Scope.value, Settings.resolve_congr similar.bag lacks engine.settings known]
  unfold Scope.evaluate
  rw [lookup]

/-- Statements of known words do the same in scopes that are similar. -/
theorem run_eq {texts : List (List Char)} (known : ∀ text ∈ texts, words text ⊆ vocabulary) :
    first.run engine texts = second.run engine texts := by
  induction texts generalizing first second with
  | nil => rw [Scope.run, Scope.run]
  | cons text texts ih =>
      rw [List.forall_mem_cons] at known
      rw [Scope.run, Scope.run]
      cases read : Statement.ofText? text with
      | error fault => rfl
      | ok found =>
          have started {next : Option Statement → Run Decimal} :
              (Run.ofExcept (.ok found) >>= next) = next found := pure_bind found next
          rw [started, started]
          cases found with
          | none => exact ih similar known.2
          | some statement =>
              have inside : words statement.source.toList ⊆ vocabulary :=
                List.Subset.trans (Statement.words_source read) known.1
              cases statement with
              | answer expression =>
                  have known : words expression.toList ⊆ vocabulary := inside
                  dsimp only
                  rw [similar.value_eq lacks engine known]
              | assignment name expression =>
                  have inside : words expression.toList ⊆ vocabulary := inside
                  dsimp only
                  rw [similar.value_eq lacks engine inside]
                  exact bind_congr fun value =>
                    bind_congr fun _ => ih (similar.assign name value) known.2
              | definition function => exact bind_congr fun _ => ih (similar.define inside) known.2

end Scope.Similar

/-! ## Bags that agree -/

namespace Bag

/-- Whether the names of a bag are made of word characters and differ in more than case. -/
structure IsTidy (bag : Bag) : Prop where
  /-- No name has any other character. -/
  word : ∀ name ∈ bag.keys, ∀ character ∈ name.toList, isWordCharacter character = true
  /-- No two names are the same but for case. -/
  distinct : ∀ name ∈ bag.keys, ∀ other ∈ bag.keys,
    foldCase name.toList = foldCase other.toList → name = other

/--
Whether a word in any case is bound in both bags with the same spelling and value, or in neither.
-/
def AgreesOn (first second : Bag) (word : List Char) : Prop :=
  ∀ name value, foldCase name.toList = foldCase word →
    ((name, value) ∈ first.entries ↔ (name, value) ∈ second.entries)

theorem agreesOn_of_filter {first second : Bag} {word : List Char}
    (same : (first.entries.filter fun entry => foldCase entry.1.toList == foldCase word) =
      second.entries.filter fun entry => foldCase entry.1.toList == foldCase word) :
    first.AgreesOn second word := by
  intro name value folds
  have both := congrArg ((name, value) ∈ ·) same
  simpa [List.mem_filter, folds] using both

/-- A name of word characters fits the word that it folds to, unless this begins a call. -/
theorem foldCase_of_fitsAt {name : String} {text : List Char}
    (word : ∀ character ∈ name.toList, isWordCharacter character = true)
    (fits : fitsAt text name = true) :
    name.toList ≠ [] ∧ foldCase name.toList = foldCase (text.takeWhile isWordCharacter) := by
  have nonempty : name.toList ≠ [] := by
    intro empty
    simp [fitsAt, Candidate.fits, empty] at fits
  have ends : inWord (text.dropWhile isWordCharacter).head? = false := by
    cases found : text.dropWhile isWordCharacter with
    | nil => rfl
    | cons character rest =>
        have outside := List.head?_dropWhile_not isWordCharacter text
        rw [found] at outside
        simpa [inWord] using outside
  rw [fitsAt, ← List.takeWhile_append_dropWhile (p := isWordCharacter) (l := text),
    Candidate.fits_iff_of_word word nonempty (fun character => List.mem_takeWhile_imp) ends] at fits
  exact ⟨nonempty, fits.1⟩

namespace IsTidy

variable {bag : Bag}

/-- In a tidy bag no more than one entry fits. -/
theorem find?_eq_some_iff (tidy : bag.IsTidy) (text : List Char)
    (entry : String × Option Decimal) :
    (bag.entries.find? fun entry => fitsAt text entry.1) = some entry ↔
      entry ∈ bag.entries ∧ fitsAt text entry.1 = true := by
  constructor
  · intro found
    have fits := List.find?_some found
    exact ⟨List.mem_of_find?_eq_some found, fits⟩
  · rintro ⟨member, fits⟩
    cases found : bag.entries.find? fun entry => fitsAt text entry.1 with
    | none => exact absurd fits (List.find?_eq_none.mp found entry member)
    | some other =>
        have otherMember := List.mem_of_find?_eq_some found
        have otherFits := List.find?_some found
        have key {entry : String × Option Decimal} (member : entry ∈ bag.entries) :
            entry.1 ∈ bag.keys := List.mem_map_of_mem member
        have folds := foldCase_of_fitsAt (tidy.word _ (key member)) fits
        have otherFolds := foldCase_of_fitsAt (tidy.word _ (key otherMember)) otherFits
        have name := tidy.distinct _ (key otherMember) _ (key member)
          (otherFolds.2.trans folds.2.symm)
        rw [List.inj_on_of_nodup_map bag.distinct otherMember member name]

theorem filter (tidy : bag.IsTidy) (keep : String × Option Decimal → Bool) :
    IsTidy (bag.filter keep) := by
  have inside : (bag.filter keep).keys ⊆ bag.keys :=
    (List.filter_sublist.map Prod.fst).subset
  exact ⟨fun name member => tidy.word name (inside member), fun name member other otherMember =>
    tidy.distinct name (inside member) other (inside otherMember)⟩

end IsTidy

theorem AgreesOn.filter {first second : Bag} {word : List Char} (agree : first.AgreesOn second word)
    (keep : String × Option Decimal → Bool) :
    AgreesOn (first.filter keep) (second.filter keep) word := fun name value folds => by
  rw [Bindings.filter, Bindings.filter, List.mem_filter, List.mem_filter, agree name value folds]

/-- Tidy bags that agree on a vocabulary are similar, in whatever order the names are bound. -/
theorem similar_of_agree {vocabulary : List (List Char)} {first second : Bag}
    (firstTidy : first.IsTidy) (secondTidy : second.IsTidy)
    (agree : ∀ word ∈ vocabulary, first.AgreesOn second word) :
    Similar vocabulary first second := by
  intro text known
  have isWord {bag : Bag} (tidy : bag.IsTidy) {entry : String × Option Decimal}
      (member : entry ∈ bag.entries) (fits : fitsAt text entry.1 = true) :
      text.takeWhile isWordCharacter ∈ vocabulary ∧
        foldCase entry.1.toList = foldCase (text.takeWhile isWordCharacter) := by
    obtain ⟨nonempty, folds⟩ := foldCase_of_fitsAt (tidy.word _ (List.mem_map_of_mem member)) fits
    refine ⟨(List.mem_cons.mp known).resolve_left fun empty => nonempty ?_, folds⟩
    rw [empty] at folds
    exact List.map_eq_nil_iff.mp folds
  refine Option.ext fun entry => ?_
  rw [firstTidy.find?_eq_some_iff, secondTidy.find?_eq_some_iff]
  constructor
  · rintro ⟨member, fits⟩
    obtain ⟨word, folds⟩ := isWord firstTidy member fits
    exact ⟨(agree _ word entry.1 entry.2 folds).mp member, fits⟩
  · rintro ⟨member, fits⟩
    obtain ⟨word, folds⟩ := isWord secondTidy member fits
    exact ⟨(agree _ word entry.1 entry.2 folds).mpr member, fits⟩

end Bag

/-! ## Calculations -/

namespace Engine

variable {engine : Engine} {first second : Bag}

/-- The value of an expression depends on the variables that its words find. -/
theorem value_eq_of_similar
    (noOperator : Operator.ofExpression? engine.settings.expression.toList = none)
    (lacks : LacksAll (words engine.settings.expression.toList))
    (similar : Bag.Similar (words engine.settings.expression.toList) first second) :
    engine.value first = engine.value second := by
  rw [value, value, noOperator]
  dsimp only
  split
  case isTrue =>
    have scopes : Scope.Similar (words engine.settings.expression.toList) ⟨first, .empty⟩
        ⟨second, .empty⟩ := by
      refine ⟨similar, rfl, fun name function found => ?_⟩
      cases found
    exact scopes.run_eq lacks engine fun text member =>
      words_subset_of_mem_splitAtEach (by decide) member
  case isFalse =>
    rw [Settings.resolve_congr similar lacks engine.settings (List.Subset.refl _)]

end Engine

/--
Of the parameters only those matter that are words of the expression, in any case.  Two bags whose
names are made of word characters and differ in more than case lead to the same calculation, with
the same record, if they agree on every word of the expression, whatever else they hold and in
whatever order.  Neither may the expression be a lone operator, nor may it speak of all parameters.
-/
theorem calculate_eq_of_agree (engine : Engine)
    (noOperator : Operator.ofExpression? engine.settings.expression.toList = none)
    (lacks : LacksAll (words engine.settings.expression.toList)) {first second : Bag}
    (firstTidy : first.IsTidy) (secondTidy : second.IsTidy)
    (agree : ∀ word ∈ words engine.settings.expression.toList, first.AgreesOn second word) :
    engine.calculate first = engine.calculate second := by
  have admitted : Bag.Similar (words engine.settings.expression.toList) (engine.admitted first)
      (engine.admitted second) := by
    unfold Engine.admitted
    split
    case isTrue =>
      exact Bag.similar_of_agree (firstTidy.filter _) (secondTidy.filter _) fun word member =>
        (agree word member).filter _
    case isFalse => exact Bag.similar_of_agree firstTidy secondTidy agree
  rw [Engine.calculate, Engine.calculate, Engine.value_eq_of_similar noOperator lacks admitted]

namespace Mentioned

/-- A block with a variable and a function that looks at parameters. -/
def engine : Engine :=
  { settings := { expression := "f(x) = x * _Rate; y = f(2); return y + 1z;" } }

/-- A bag with two of the words of the block. -/
def bag : Bag := ⟨[("_rate", some (.ofInt 3)), ("1z", none)], by decide⟩

/-- The same parameters in another order, with some that the block does not mention. -/
def larger : Bag :=
  ⟨[("1", some (.ofInt 7)), ("1z", none), ("yy", some (.ofInt 5)), ("_rate", some (.ofInt 3))],
    by decide⟩

theorem isTidy {entries : List (String × Option Decimal)}
    (distinct : (entries.map Prod.fst).Nodup)
    (tidy : (entries.map Prod.fst).all (fun name => name.toList.all isWordCharacter &&
      (entries.map Prod.fst).all fun other =>
        foldCase name.toList != foldCase other.toList || name == other) = true) :
    Bag.IsTidy ⟨entries, distinct⟩ := by
  simp only [List.all_eq_true, Bool.and_eq_true, Bool.or_eq_true, bne_iff_ne, beq_iff_eq] at tidy
  exact ⟨fun name member => (tidy name member).1, fun name member other otherMember same =>
    ((tidy name member).2 other otherMember).resolve_left (absurd same)⟩

end Mentioned

/-- Parameters that a block does not mention change nothing. -/
theorem calculate_eq_with_unmentioned :
    Mentioned.engine.calculate Mentioned.bag = Mentioned.engine.calculate Mentioned.larger := by
  have same : ∀ word ∈ words Mentioned.engine.settings.expression.toList,
      (Mentioned.bag.entries.filter fun entry => foldCase entry.1.toList == foldCase word) =
        Mentioned.larger.entries.filter fun entry => foldCase entry.1.toList == foldCase word := by
    decide +kernel
  exact calculate_eq_of_agree Mentioned.engine (by decide +kernel)
    (by unfold LacksAll; decide +kernel)
    (Mentioned.isTidy _ (by decide +kernel)) (Mentioned.isTidy _ (by decide +kernel))
    fun word member => Bag.agreesOn_of_filter (same word member)

end Reckoner
