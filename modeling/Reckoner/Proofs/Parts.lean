import Mathlib.Data.List.SplitBy
import Reckoner.Proofs.Origins

/-!
# Names replaced word by word

Names are replaced in one pass that tries all candidates at every character.  This is a replacement
of whole words: a text is cut into its words and the characters between them (`partsOf`), a word is
replaced by what a candidate of its name stands for, and the other characters are resolved one by
one (`resolve_eq_replaceParts`).  A name is only found where a word begins, and then it is as long
as the word, so the pass always arrives at the end of a part.
-/

namespace Reckoner

/-! ## Words and what stands between them -/

/-- A text cut into its words and the characters between them. -/
def partsOf (text : List Char) : List (List Char) :=
  text.splitBy fun left right => isWordCharacter left && isWordCharacter right

/-- Whether a part of a text is a word: nothing but word characters. -/
def IsWordPart (part : List Char) : Prop := ∀ character ∈ part, isWordCharacter character = true

/-- Whether parts are words and single characters between them, with no two words adjacent. -/
structure IsCut (parts : List (List Char)) : Prop where
  /-- A part is a word, or it is a single character that belongs to no word. -/
  cases : ∀ part ∈ parts, part ≠ [] ∧
    (IsWordPart part ∨ ∃ character, part = [character] ∧ isWordCharacter character = false)
  /-- After a word no word follows. -/
  apart : parts.IsChain fun left right => IsWordPart left → inWord right.head? = false

theorem isWordPart_of_isChain {first second : Char} {others : List Char}
    (chain : (first :: second :: others).IsChain fun left right =>
      (isWordCharacter left && isWordCharacter right) = true) :
    IsWordPart (first :: second :: others) := by
  induction others generalizing first second with
  | nil => simpa [IsWordPart] using chain
  | cons third others ih =>
      rw [List.isChain_cons_cons, Bool.and_eq_true] at chain
      exact List.forall_mem_cons.mpr ⟨chain.1.1, ih chain.2⟩

theorem isCut_partsOf (text : List Char) : IsCut (partsOf text) := by
  constructor
  case cases =>
    intro part member
    have chain := List.isChain_of_mem_splitBy member
    refine ⟨List.ne_nil_of_mem_splitBy member, ?_⟩
    cases part with
    | nil => exact .inl nofun
    | cons first others =>
        cases others with
        | nil =>
            cases word : isWordCharacter first with
            | true => exact .inl (List.forall_mem_singleton.mpr word)
            | false => exact .inr ⟨first, rfl, word⟩
        | cons second others => exact .inl (isWordPart_of_isChain chain)
  case apart =>
    refine (List.isChain_getLast_head_splitBy _ text).imp fun left right adjacent word => ?_
    obtain ⟨leftNonempty, rightNonempty, edge⟩ := adjacent
    have inside := word _ (List.getLast_mem leftNonempty)
    rw [List.head?_eq_some_head rightNonempty]
    simpa [inside, inWord] using edge

/-- Behind a word that is a part no word begins. -/
theorem IsCut.ends {part : List Char} {others : List (List Char)} (cut : IsCut (part :: others))
    (word : IsWordPart part) : inWord others.flatten.head? = false := by
  cases others with
  | nil => rfl
  | cons other others =>
      have next := (List.isChain_cons_cons.mp cut.apart).1 word
      have nonempty := (cut.cases other (by simp)).1
      rwa [List.flatten_cons, List.head?_append_of_ne_nil _ nonempty]

/-! ## Replacing words -/

/--
The value that a part of a text is replaced by: that of the first candidate with its name, if it is
a word and no parenthesis opens directly after it.
-/
def Candidate.replacement? (candidates : List Candidate) (part after : List Char) :
    Option (List Char) :=
  if part.all isWordCharacter && after.head? != some '(' then
    (candidates.find? fun candidate => foldCase candidate.name == foldCase part).map value
  else none

/-- The text that parts become: words are replaced, other characters resolved one by one. -/
def replaceParts (candidates : List Candidate) (pi : List Char) : List (List Char) → List Char
  | [] => []
  | part :: others =>
    (Candidate.replacement? candidates part others.flatten).getD
        (part.flatMap (resolveCharacter pi)) ++ replaceParts candidates pi others

section Replacing

variable {candidates : List Candidate} (pi : List Char) {before : Option Char}
  {run rest : List Char}

/-- No name is found where no word begins. -/
theorem Candidate.first?_outside (words : AreWords candidates) {character : Char}
    (outside : isWordCharacter character = false) :
    Candidate.first? candidates before (character :: rest) = none := by
  cases found : Candidate.first? candidates before (character :: rest) with
  | none => rfl
  | some candidate =>
      obtain ⟨-, run, others, -, -, word, -⟩ := exists_of_first? words found
      exact nomatch outside.symm.trans (word character List.mem_cons_self)

/-- What a word is replaced by is what is found where it begins. -/
theorem Candidate.replacement?_eq (words : AreWords candidates) (word : IsWordPart run)
    (nonempty : run ≠ []) (starts : inWord before = false) (ends : inWord rest.head? = false) :
    replacement? candidates run rest =
      (Candidate.first? candidates before (run ++ rest)).map value := by
  have all : run.all isWordCharacter = true := List.all_eq_true.mpr word
  rw [first?_word words word nonempty starts ends, replacement?, all, Bool.true_and]
  by_cases call : rest.head? = some '('
  · simp [call]
  · simp [call]

/-- A word is replaced, or its characters are resolved one by one. -/
theorem exists_replaceNames_word (words : Candidate.AreWords candidates) (word : IsWordPart run)
    (nonempty : run ≠ []) (starts : inWord before = false) (ends : inWord rest.head? = false) :
    ∃ after, replaceNames candidates pi 0 before (run ++ rest) =
      (Candidate.replacement? candidates run rest).getD (run.flatMap (resolveCharacter pi)) ++
        replaceNames candidates pi 0 after rest := by
  rw [Candidate.replacement?_eq words word nonempty starts ends]
  cases found : Candidate.first? candidates before (run ++ rest) with
  | some candidate =>
      have length := Candidate.length_of_first? words word nonempty starts ends found
      obtain ⟨first, tail, rfl⟩ := List.exists_cons_of_ne_nil nonempty
      obtain ⟨after, passed⟩ := exists_replaceNames_pass pi candidates (some first) tail rest
      refine ⟨after, ?_⟩
      rw [List.cons_append] at found ⊢
      rw [replaceNames, found]
      dsimp only [Option.map_some, Option.getD_some]
      rw [length, List.length_cons, Nat.add_sub_cancel, passed]
  | none =>
      obtain ⟨first, tail, rfl⟩ := List.exists_cons_of_ne_nil nonempty
      have inside : inWord (some first) = true := word first List.mem_cons_self
      obtain ⟨after, resolved⟩ := exists_replaceNames_within pi candidates rest
        (List.forall_mem_cons.mp word).2 inside
      refine ⟨after, ?_⟩
      rw [List.cons_append] at found ⊢
      rw [replaceNames, found]
      dsimp only [Option.map_none, Option.getD_none]
      rw [resolved, List.flatMap_cons, List.append_assoc]

/-- One pass over a text replaces its words. -/
theorem replaceNames_flatten (words : Candidate.AreWords candidates)
    {parts : List (List Char)} (cut : IsCut parts)
    (starts : inWord before = true → inWord parts.flatten.head? = false) :
    replaceNames candidates pi 0 before parts.flatten = replaceParts candidates pi parts := by
  induction parts generalizing before with
  | nil => rfl
  | cons part others ih =>
      obtain ⟨⟨nonempty, either⟩, later⟩ := List.forall_mem_cons.mp cut.cases
      have next : IsCut others := ⟨later, (List.isChain_cons.mp cut.apart).2⟩
      rw [List.flatten_cons] at starts ⊢
      rw [replaceParts]
      rcases either with word | ⟨character, rfl, outside⟩
      · have free : inWord before = false := by
          obtain ⟨first, tail, rfl⟩ := List.exists_cons_of_ne_nil nonempty
          rw [Bool.eq_false_iff]
          intro inside
          exact nomatch (starts inside).symm.trans (word first List.mem_cons_self)
        obtain ⟨after, replaced⟩ :=
          exists_replaceNames_word pi words word nonempty free (cut.ends word)
        rw [replaced, ih next fun _ => cut.ends word]
      · have free : inWord (some character) = false := outside
        rw [List.singleton_append, replaceNames, Candidate.first?_outside words outside]
        dsimp only
        rw [ih next fun inside => nomatch free.symm.trans inside]
        simp [Candidate.replacement?, outside]

end Replacing

/--
Resolving a text is replacing its words.  If all bound names are words, the text is cut into its
words and the characters between them.  A word that does not begin a call is replaced by the value
of the first name that it equals but for case: of the bound names in their order, the name of all
parameters, those of the rounding modes, and the constants.  All other characters are resolved one
by one, and what a word was replaced by is not looked at again.
-/
theorem resolve_eq_replaceParts (settings : Settings) (bag : Bag)
    (words : ∀ name ∈ bag.keys, ∀ character ∈ name.toList, isWordCharacter character = true)
    (text : List Char) :
    (partsOf text).flatten = text ∧ IsCut (partsOf text) ∧
      (settings.resolve bag text).outcome =
        (fun constants : Constants =>
          replaceParts (Candidate.all bag constants.pi.plainDigits constants.euler.plainDigits)
            constants.pi.plainDigits (partsOf text)) <$>
          Constants.rounded settings.calculation := by
  have whole : (partsOf text).flatten = text := List.flatten_splitBy _ text
  refine ⟨whole, isCut_partsOf text, ?_⟩
  rw [Settings.outcome_resolve]
  congr 1
  funext constants
  have names := Bag.areWords_all words constants.pi.plainDigits
    constants.euler.plainDigits
  have free : inWord none = false := rfl
  have starts : inWord none = true → inWord (partsOf text).flatten.head? = false :=
    fun inside => nomatch free.symm.trans inside
  rw [← replaceNames_flatten _ names (isCut_partsOf text) starts, whole]

namespace WordNames

/-- A bag that binds two spellings of a letter. -/
def bag : Bag := (Bindings.insert .empty "x" (some (.ofInt 3))).insert "X" none

theorem words :
    ∀ name ∈ bag.keys, ∀ character ∈ name.toList, isWordCharacter character = true := by
  intro name member
  rcases List.mem_cons.mp member with rfl | second
  · exact List.all_eq_true.mp (by decide +kernel)
  · obtain rfl := List.mem_singleton.mp second
    exact List.all_eq_true.mp (by decide +kernel)

end WordNames

/-- A name in either case, in a longer word, before a parenthesis and before a power. -/
theorem resolve_words :
    partsOf "X·xx x(x²)".toList =
        [['X'], ['·'], ['x', 'x'], [' '], ['x'], ['('], ['x'], ['²'], [')']] ∧
      (Settings.resolve {} WordNames.bag "X·xx x(x²)".toList).outcome =
        .ok "3·xx x(3^2)".toList := by
  have parts : partsOf "X·xx x(x²)".toList =
      [['X'], ['·'], ['x', 'x'], [' '], ['x'], ['('], ['x'], ['²'], [')']] := by decide +kernel
  refine ⟨parts, ?_⟩
  rw [(resolve_eq_replaceParts {} WordNames.bag WordNames.words _).2.2, parts]
  rfl

end Reckoner
