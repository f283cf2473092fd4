import Reckoner.Proofs.Margins

/-!
# Calls of accepted names

A name that is accepted for a function, applied to literals, calls this function with the values of
the literals: as the expression of a calculation, and as what a block returns (`calculate_call`).
Replacing names leaves such a text as it is (`Bag.Spares.outcome_resolve`).  The name itself is
protected by the parenthesis after it; only a part of it that ends before a sign `√` or `∑` is
not, and a bound name that is no word may stand anywhere.
-/

namespace Reckoner

/-! ## Texts in which no name stands -/

/-- Whether a name stands somewhere in a text, from a word edge to a word edge and not as the name
of a function that is called. -/
def StandsIn (name text : List Char) : Prop :=
  ∃ front rest, text = front ++ rest ∧ isWordEdge front.getLast? rest.head? = true ∧
    Candidate.fits ⟨name, []⟩ rest = true

section Sparing

variable {candidates : List Candidate} {text : List Char}

theorem Candidate.first?_of_not_standsIn
    (absent : ∀ candidate ∈ candidates, ¬ StandsIn candidate.name text) {front rest : List Char}
    (split : text = front ++ rest) : Candidate.first? candidates front.getLast? rest = none := by
  rw [Candidate.first?]
  split
  case isTrue edge =>
    rw [List.find?_eq_none]
    intro candidate member fits
    exact absent candidate member ⟨front, rest, split, edge, fits⟩
  case isFalse => rfl

/-- A text in which no name stands is copied. -/
theorem replaceNames_of_not_standsIn (pi : List Char)
    (plain : ∀ character ∈ text, IsPlain character)
    (absent : ∀ candidate ∈ candidates, ¬ StandsIn candidate.name text) :
    replaceNames candidates pi 0 none text = text := by
  have copied (front rest : List Char) (split : text = front ++ rest) :
      replaceNames candidates pi 0 front.getLast? rest = rest := by
    induction rest generalizing front with
    | nil => rfl
    | cons character rest ih =>
        have plainHere := plain character (by simp [split])
        have later := ih (front ++ [character]) (by simpa using split)
        rw [List.getLast?_concat] at later
        have none := Candidate.first?_of_not_standsIn absent split
        rw [replaceNames_of_none pi plainHere none, later]
  exact copied [] text rfl

end Sparing

/-! ## Calls -/

namespace FunctionName

/-- The text of literals as the arguments of a call. -/
def argumentText (literals : List Literal) : List Char :=
  '(' :: ([','].intercalate (literals.map Literal.text) ++ [')'])

/-- The text of a call with literals as arguments. -/
def callText (name : FunctionName) (literals : List Literal) : List Char :=
  name.name.toList ++ argumentText literals

/-- Whether a word of the name ends before its last character, so that no parenthesis follows it
in a call. -/
def Exposes (name : FunctionName) (word : List Char) : Prop :=
  ∃ front next rest, name.name.toList = front ++ (word ++ next :: rest) ∧
    inWord front.getLast? = false ∧ (∀ character ∈ word, isWordCharacter character = true) ∧
      isWordCharacter next = false

end FunctionName

/-- The names that are replaced wherever they stand, the bound ones first. -/
def Bag.replacedNames (bag : Bag) : List (List Char) := (Candidate.all bag [] []).map Candidate.name

/-- Whether replacing names passes a call over: no bound name stands in it that is not a word, and
no word that the name of the function exposes is replaced. -/
structure Bag.Spares (bag : Bag) (name : FunctionName) (literals : List Literal) : Prop where
  /-- Bound names are words, or stand elsewhere. -/
  words : ∀ key ∈ bag.keys, Candidate.IsWord ⟨key.toList, []⟩ ∨
    ¬ StandsIn key.toList (name.callText literals)
  /-- Exposed words are bound nowhere. -/
  exposed : ∀ word, name.Exposes word → ∀ key ∈ bag.replacedNames, foldCase word ≠ foldCase key

section Texts

variable {name : FunctionName} {literals : List Literal}

/-- Between the parentheses of a call there are digits, points and commas. -/
theorem mem_arguments {character : Char}
    (member : character ∈ [','].intercalate (literals.map Literal.text)) :
    character = ',' ∨ isNumberCharacter character = true := by
  induction literals with
  | nil => simp [List.intercalate] at member
  | cons literal others ih =>
      have first (found : character ∈ literal.text) : isNumberCharacter character = true :=
        literal.digits character found
      cases others with
      | nil =>
          rw [List.map_cons, List.map_nil, List.intercalate_singleton] at member
          exact .inr (first member)
      | cons next later =>
          rw [List.map_cons, List.map_cons, List.intercalate_cons_cons, List.mem_append,
            List.mem_append, List.mem_singleton] at member
          rcases member with (found | comma) | found
          · exact .inr (first found)
          · exact .inl comma
          · exact ih found

/-- No name begins with a character of the arguments of a call. -/
theorem mem_argumentText {character : Char}
    (member : character ∈ FunctionName.argumentText literals) :
    IsPlain character ∧ (isWordCharacter character = false ∨ character.isDigit = true) := by
  have mark {mark : Char} (known : mark ∈ grammarMarks) :
      IsPlain mark ∧ (isWordCharacter mark = false ∨ mark.isDigit = true) :=
    ⟨isPlain_of_mem_grammarMarks known, .inl (not_isWordCharacter_of_mem_grammarMarks mark known)⟩
  simp only [FunctionName.argumentText, List.mem_cons, List.mem_append, List.not_mem_nil,
    or_false] at member
  rcases member with rfl | inArguments | rfl
  · exact mark (by decide)
  · rcases mem_arguments inArguments with rfl | number
    · exact mark (by decide)
    · exact facts_of_isNumberCharacter number
  · exact mark (by decide)

theorem isPlain_of_mem_callText {character : Char} (member : character ∈ name.callText literals) :
    IsPlain character := by
  rcases List.mem_append.mp member with inName | inArguments
  · exact isPlain_of_isFunctionCharacter (name.isFunctionCharacter_of_mem character inName)
  · exact (mem_argumentText inArguments).1

/-- A word that stands in a call begins within the name of the function. -/
theorem exists_of_fits {key front rest : List Char} (isWord : Candidate.IsWord ⟨key, []⟩)
    (split : name.callText literals = front ++ rest)
    (fits : Candidate.fits ⟨key, []⟩ rest = true) :
    ∃ first tail, name.name.toList = front ++ first :: tail ∧
      rest = first :: tail ++ FunctionName.argumentText literals ∧
        isWordCharacter first = true := by
  have outside (front rest : List Char)
      (inArguments : FunctionName.argumentText literals = front ++ rest) :
      Candidate.fits ⟨key, []⟩ rest = false := by
    cases rest with
    | nil => exact Candidate.not_fits_nil _
    | cons first later =>
        have member : first ∈ FunctionName.argumentText literals :=
          inArguments ▸ List.mem_append_right front List.mem_cons_self
        exact Candidate.not_fits_of_head isWord (mem_argumentText member).2 later
  rcases List.append_eq_append_iff.mp split with ⟨middle, -, inArguments⟩ | ⟨middle, whole, tail⟩
  · rw [outside middle rest inArguments] at fits
    exact nomatch fits
  · cases middle with
    | nil =>
        rw [outside [] rest tail.symm] at fits
        exact nomatch fits
    | cons first later =>
        refine ⟨first, later, whole, tail, ?_⟩
        by_contra noWord
        rw [tail, List.cons_append,
          Candidate.not_fits_of_head isWord (.inl (by simpa using noWord))] at fits
        exact nomatch fits

/-- A word stands in a call only where the name of the function exposes it. -/
theorem not_standsIn_of_isWord {key : List Char} (isWord : Candidate.IsWord ⟨key, []⟩)
    (exposed : ∀ word, name.Exposes word → foldCase word ≠ foldCase key) :
    ¬ StandsIn key (name.callText literals) := by
  rintro ⟨front, rest, split, edge, fits⟩
  obtain ⟨first, tail, whole, rfl, starts⟩ := exists_of_fits isWord split fits
  have begins : inWord front.getLast? = false := by
    simpa [isWordEdge, inWord, starts] using edge
  let word := (first :: tail).takeWhile isWordCharacter
  let after := (first :: tail).dropWhile isWordCharacter
  have parts : first :: tail = word ++ after := List.takeWhile_append_dropWhile.symm
  have letters : ∀ character ∈ word, isWordCharacter character = true :=
    fun character => List.mem_takeWhile_imp
  have stops : inWord after.head? = false := by
    have stopped := List.head?_dropWhile_not isWordCharacter (first :: tail)
    cases found : after with
    | nil => rfl
    | cons next later =>
        rw [show (first :: tail).dropWhile isWordCharacter = next :: later from found] at stopped
        exact stopped
  rw [parts, List.append_assoc] at fits
  cases found : after with
  | nil =>
      rw [found, Candidate.fits_iff isWord letters rfl] at fits
      exact fits.2 rfl
  | cons next later =>
      rw [found] at stops fits
      have ends : inWord (next :: later ++ FunctionName.argumentText literals).head? = false :=
        stops
      rw [Candidate.fits_iff isWord letters ends] at fits
      refine exposed word ⟨front, next, later, ?_, begins, letters, stops⟩ fits.1.symm
      rw [whole, parts, found]

end Texts

/-! ## Replacing names in a call -/

namespace Bag.Spares

variable {bag : Bag} {name : FunctionName} {literals : List Literal}

theorem not_standsIn (spares : bag.Spares name literals) {pi euler : List Char} :
    ∀ candidate ∈ Candidate.all bag pi euler,
      ¬ StandsIn candidate.name (name.callText literals) := by
  intro candidate member
  have replaced : candidate.name ∈ bag.replacedNames := by
    have names : (Candidate.all bag pi euler).map Candidate.name = bag.replacedNames := by
      simp only [Bag.replacedNames, Candidate.all_eq, List.map_append, List.map_map]
      rfl
    exact names ▸ List.mem_map_of_mem member
  have hidden : ∀ word, name.Exposes word → foldCase word ≠ foldCase candidate.name :=
    fun word exposes => spares.exposed word exposes _ replaced
  rw [Candidate.all_eq, List.mem_append] at member
  rcases member with bound | fixed
  · obtain ⟨entry, found, rfl⟩ := List.mem_map.mp bound
    rcases spares.words entry.1 (List.mem_map_of_mem found) with isWord | absent
    · exact not_standsIn_of_isWord isWord hidden
    · exact absent
  · have isWord := Candidate.isWord_of_mem_fixed candidate fixed
    exact not_standsIn_of_isWord ⟨isWord.word, isWord.head⟩ hidden

/-- Replacing names leaves a call as it is. -/
theorem outcome_resolve (spares : bag.Spares name literals) (settings : Settings) :
    (settings.resolve bag (name.callText literals)).outcome =
      (Constants.rounded settings.calculation).map fun _ => name.callText literals := by
  have same (constants : Constants) :
      replaceNames (Candidate.all bag constants.pi.plainDigits constants.euler.plainDigits)
        constants.pi.plainDigits 0 none (name.callText literals) = name.callText literals :=
    replaceNames_of_not_standsIn _ (fun _ member => isPlain_of_mem_callText member)
      spares.not_standsIn
  rw [Settings.outcome_resolve]
  simp only [same]
  rfl

end Bag.Spares

/-! ## Evaluating a call -/

/-- Literals with commas between them. -/
def Phrase.ofLiterals (first : Literal) : List Literal → Phrase Literal .list
  | [] => .last (.alone (.single (.plain (.atom first))))
  | next :: later => .cons (.alone (.single (.plain (.atom first)))) (ofLiterals next later)

/-- A function applied to literals. -/
def Phrase.ofCall (name : FunctionName) : List Literal → Phrase Literal .sum
  | [] => .alone (.single (.plain (.call name)))
  | first :: others => .alone (.single (.plain (.apply name (ofLiterals first others))))

theorem Spaced.flatten (units : List (List Char)) : Spaced units units.flatten := by
  induction units with
  | nil => exact .nil
  | cons unit units ih => exact .cons unit ih

namespace Phrase

theorem flatten_lexemes_ofLiterals (first : Literal) (others : List Literal) :
    ((ofLiterals first others).lexemes.map (Lexeme.text Literal.text)).flatten =
      [','].intercalate ((first :: others).map Literal.text) := by
  induction others generalizing first with
  | nil => simp [ofLiterals, lexemes, Lexeme.text]
  | cons next later ih =>
      rw [List.map_cons, List.map_cons, List.intercalate_cons_cons, ← List.map_cons, ← ih next]
      simp [ofLiterals, lexemes, Lexeme.text]

/-- The text of a call writes the call. -/
theorem spaced_callText (name : FunctionName) (literals : List Literal) :
    Spaced ((ofCall name literals).lexemes.map (Lexeme.text Literal.text))
      (name.callText literals) := by
  have flat : ((ofCall name literals).lexemes.map (Lexeme.text Literal.text)).flatten =
      name.callText literals := by
    cases literals with
    | nil => simp [ofCall, lexemes, Lexeme.text, FunctionName.callText, FunctionName.argumentText]
    | cons first others =>
        simp [ofCall, lexemes, Lexeme.text, FunctionName.callText, FunctionName.argumentText,
          flatten_lexemes_ofLiterals]
  exact flat ▸ Spaced.flatten _

theorem tree_ofLiterals (first : Literal) (others : List Literal) :
    (ofLiterals first others).tree = (first :: others).map fun literal => .number literal.text := by
  induction others generalizing first with
  | nil => rfl
  | cons next later ih => exact congrArg (Tree.number first.text :: ·) (ih next)

/-- The tree of a call. -/
theorem tree_ofCall (name : FunctionName) (literals : List Literal) :
    (ofCall name literals).tree =
      .call name.name (literals.map fun literal => .number literal.text) := by
  cases literals with
  | nil => rfl
  | cons first others => exact congrArg (Tree.call name.name) (tree_ofLiterals first others)

/-- The text of a call is read as the call. -/
theorem result_sum_callText (name : FunctionName) (literals : List Literal) :
    trim (name.callText literals) ≠ [] ∧
      (Grammar.sum (Token.scan (trim (name.callText literals)))).result =
        (.call name.name (literals.map fun literal => .number literal.text), []) := by
  rw [← tree_ofCall]
  exact result_sum_scan (List.append_nil _).symm (by simp) (spaced_callText name literals)

end Phrase

namespace Tree

variable {settings : Settings} {lookup : Lookup} {name : String} {values : List Decimal}

theorem outcome_evaluateAll_numbers (literals : List Literal) :
    (evaluateAll settings lookup (literals.map fun literal => .number literal.text)).outcome =
      literals.mapM settings.calculation.ofLiteral := by
  induction literals with
  | nil => rfl
  | cons first others ih =>
      rw [List.map_cons, outcome_evaluateAll_cons, outcome_evaluate_number, ih, List.mapM_cons]
      rfl

theorem not_anyInvokes_numbers (literals : List Literal) :
    ¬ AnyInvokes settings lookup name values
      (literals.map fun literal => .number literal.text) := by
  induction literals with
  | nil => simp [AnyInvokes]
  | cons first others ih => simp [AnyInvokes, Invokes, ih]

end Tree

namespace Settings

variable {settings : Settings} {lookup : Lookup} {name : FunctionName} {literals : List Literal}
  {callee : Callee}

/-- A call comes to what the function makes of the values of the literals. -/
theorem rootCause_evaluate_callText (settings : Settings) (literals : List Literal)
    (found : lookup name.name = some callee) :
    rootCause (settings.evaluate lookup (name.callText literals)).outcome =
      rootCause (do
        let values ← literals.mapM settings.calculation.ofLiteral
        (callee values).outcome) := by
  obtain ⟨visible, read⟩ := Phrase.result_sum_callText name literals
  rw [outcome_evaluate visible, rootCause_mapError_inExpression, Tree.ofTokens,
    Reading.outcome_evaluate_of_result read, Tree.outcome_evaluate_call, Lookup.outcomes, found,
    Option.map_some, Tree.outcome_evaluateAll_numbers]

/-- A call invokes the function that it names, with the values of the literals, and nothing else. -/
theorem invokes_callText_iff (found : lookup name.name = some callee) {other : String}
    {values : List Decimal} :
    settings.Invokes lookup (name.callText literals) other values ↔
      other = name.name ∧ literals.mapM settings.calculation.ofLiteral = .ok values := by
  obtain ⟨visible, read⟩ := Phrase.result_sum_callText name literals
  have tree : (Tree.ofTokens (Token.scan (trim (name.callText literals)))).value =
      .call name.name (literals.map fun literal => .number literal.text) := congrArg Prod.fst read
  rw [Invokes, tree, Tree.Invokes, found, Tree.outcome_evaluateAll_numbers]
  simp [visible, Tree.not_anyInvokes_numbers, eq_comm]

end Settings

/-! ## Where a call stands -/

/-- Where a text can stand that a calculation evaluates for its result, with the bag whose names are
replaced in it and the local functions that it can call. -/
inductive Engine.Site (engine : Engine) (bag : Bag) (text : List Char) : Bag → Lookup → Prop
  /-- The text is the expression. -/
  | whole (same : engine.settings.expression.toList = text) :
      Site engine bag text (engine.admitted bag) fun _ => none
  /-- The text is what a block returns. -/
  | returned {history : History} {scope : Scope} {statement : List Char} {texts : List (List Char)}
      (block : engine.IsBlock)
      (reaches : engine.Reaches (engine.admitted bag) history scope (statement :: texts))
      (read : Statement.ofText? statement = .ok (some (.answer (String.ofList text)))) :
      Site engine bag text scope.bag (scope.callees engine engine.settings.callLimit)

/-- Whether a name stands for a function that is called by it: a function of the host, or a local
one, which hides that of the host. -/
inductive Engine.Provides (engine : Engine) (locals : Lookup) (name : String) : Callee → Prop
  /-- A function of the block. -/
  | inBlock {callee : Callee} (found : locals name = some callee) :
      Provides engine locals name callee
  /-- A function of the host. -/
  | host {function : Function} (unbound : locals name = none)
      (registered : engine.functions.find? name = some function) :
      Provides engine locals name (engine.callee function)

namespace Engine

variable {engine : Engine} {bag bindings : Bag} {locals : Lookup} {text : List Char}

theorem Provides.lookup_eq {name : String} {callee : Callee}
    (provides : engine.Provides locals name callee) (absent : builtin? name = none) :
    engine.lookup locals name = some callee := by
  cases provides with
  | inBlock found => exact lookup_of_local absent found
  | host unbound registered => rw [lookup_of_host absent unbound, registered, Option.map_some]

/-- The result of a calculation is that of the text at a site, rounded. -/
theorem Site.outcome_calculate (site : engine.Site bag text bindings locals)
    (noOperator : Operator.ofExpression? text = none) (noSeparator : ';' ∉ text) :
    (engine.calculate bag).outcome = (do
      let resolved ← (engine.settings.resolve bindings text).outcome
      let value ← (engine.settings.evaluate (engine.lookup locals) resolved).outcome
      engine.settings.result.round value) := by
  cases site with
  | whole same =>
      subst same
      rw [Engine.outcome_calculate, outcome_value_of_single noSeparator noOperator, bind_assoc]
  | returned block reaches read =>
      rw [outcome_calculate_of_isBlock block, ← reaches.outcome_run, Scope.outcome_run_answer read,
        Scope.outcome_value, String.toList_ofList, bind_assoc]
      rfl

end Engine

namespace FunctionName

variable (name : FunctionName) (literals : List Literal)

theorem ofExpression?_callText : Operator.ofExpression? (name.callText literals) = none := by
  have member : '(' ∈ name.callText literals := by simp [callText, argumentText]
  refine Operator.ofExpression?_eq_none member (by decide) fun operator => ?_
  cases operator <;> decide

theorem not_mem_callText : ';' ∉ name.callText literals := by
  intro member
  rcases List.mem_append.mp member with inName | inArguments
  · exact absurd (name.isFunctionCharacter_of_mem _ inName) (by decide)
  · simp only [argumentText, List.mem_cons, List.mem_append, List.not_mem_nil,
      or_false] at inArguments
    rcases inArguments with opening | found | closing
    · exact absurd opening (by decide)
    · rcases mem_arguments found with comma | number
      · exact absurd comma (by decide)
      · exact absurd number (by decide)
    · exact absurd closing (by decide)

end FunctionName

/--
Names are callable.  Where a calculation evaluates the call of a function with literals for its
result, replacing names leaves the call as it is, the function of the name is invoked with the
values of the literals and nothing else is, and what it makes of them is the result, up to the
final rounding.  This is so for every name that can be registered and is no built-in function, if
bound names are words or stand elsewhere and no word that the name exposes is replaced.
-/
theorem calculate_call {engine : Engine} {bag bindings : Bag} {locals : Lookup}
    {name : FunctionName} {literals : List Literal} {callee : Callee}
    (absent : builtin? name.name = none)
    (site : engine.Site bag (name.callText literals) bindings locals)
    (provides : engine.Provides locals name.name callee) (spares : bindings.Spares name literals) :
    (engine.settings.resolve bindings (name.callText literals)).outcome =
        (Constants.rounded engine.settings.calculation).map (fun _ => name.callText literals) ∧
      (∀ other values,
        engine.settings.Invokes (engine.lookup locals) (name.callText literals) other values ↔
          other = name.name ∧ literals.mapM engine.settings.calculation.ofLiteral = .ok values) ∧
      rootCause (engine.calculate bag).outcome = rootCause (do
        let _ ← Constants.rounded engine.settings.calculation
        let values ← literals.mapM engine.settings.calculation.ofLiteral
        let value ← (callee values).outcome
        engine.settings.result.round value) := by
  have found : engine.lookup locals name.name = some callee := provides.lookup_eq absent
  have resolved := spares.outcome_resolve engine.settings
  refine ⟨resolved, fun _ _ => Settings.invokes_callText_iff found, ?_⟩
  rw [site.outcome_calculate (name.ofExpression?_callText literals)
    (name.not_mem_callText literals), resolved]
  cases Constants.rounded engine.settings.calculation with
  | error fault => rfl
  | ok constants =>
      have evaluated := engine.settings.rootCause_evaluate_callText literals found
      have rounded := rootCause_bind_congr evaluated engine.settings.result.round
      rwa [bind_assoc] at rounded

/-- A name with a single sign `√` or `∑` in it exposes only what stands before the sign. -/
theorem FunctionName.eq_of_exposes {name : FunctionName} {front back word : List Char}
    {sign : Char} (split : name.name.toList = front ++ sign :: back)
    (inFront : ∀ character ∈ front, isWordCharacter character = true)
    (inBack : ∀ character ∈ back, isWordCharacter character = true)
    (exposes : name.Exposes word) : word = front := by
  obtain ⟨before, next, rest, whole, begins, -, stops⟩ := exposes
  have outside {part : List Char} (inWords : ∀ character ∈ part, isWordCharacter character = true) :
      next ∉ part := fun member => by simp [inWords next member] at stops
  rw [split, ← List.append_assoc,
    List.append_cons_inj_of_notMem (outside inFront) (outside inBack)] at whole
  obtain ⟨rfl, -, -⟩ := whole
  rcases List.eq_nil_or_concat' before with rfl | ⟨others, last, rfl⟩
  · rfl
  · rw [List.getLast?_concat] at begins
    have inside := inFront last (by simp)
    exact nomatch inside.symm.trans begins

namespace Horner

/-- The function that reads its arguments as digits, the first one in front. -/
def function : Function := fun _ arguments =>
  .ok (arguments.foldl (fun whole digit => whole * .ofInt 10 + digit) .zero)

/-- An engine that calls the function of the host under a name with literals. -/
def engine (name : FunctionName) (literals : List Literal) : Engine :=
  { settings := { expression := String.ofList (name.callText literals) }
    functions := .single name.name function }

/-- The literal of a digit. -/
def five : Literal := ⟨['5'], List.cons_ne_nil _ _, List.all_eq_true.mp (by decide)⟩

/-- The literal of a fraction. -/
def fraction : Literal :=
  ⟨['2', '.', '5', '0'], List.cons_ne_nil _ _, List.all_eq_true.mp (by decide)⟩

/-- Three literals, of which two are the same. -/
def arguments : List Literal := [five, fraction, five]

/-- A name with an umlaut and a root in it, behind which a letter stands. -/
def name : FunctionName := ⟨"hö√x", by decide⟩

/-- The engine that calls the function under this name with these literals. -/
abbrev rooted : Engine := engine name arguments

/-- A bag that binds this letter, and the first one of the name. -/
def bag : Bag := ⟨[("x", some (.ofInt 3)), ("h", none)], by simp⟩

theorem spares (literals : List Literal) : bag.Spares name literals where
  words := by
    intro key member
    rcases List.mem_pair.mp member with rfl | rfl
    · exact .inl ⟨List.all_eq_true.mp (by decide +kernel), 'x', [], rfl, rfl⟩
    · exact .inl ⟨List.all_eq_true.mp (by decide +kernel), 'h', [], rfl, rfl⟩
  exposed := by
    intro word exposes
    have split : name.name.toList = ['h', 'ö'] ++ '√' :: ['x'] := by decide
    obtain rfl := FunctionName.eq_of_exposes split (List.all_eq_true.mp (by decide +kernel))
      (List.all_eq_true.mp (by decide +kernel)) exposes
    decide

end Horner

/-- A function of the host is called with three literals under a name with a root and an umlaut,
although two letters of the name are bound. -/
theorem calculate_call_rooted :
    (Horner.rooted.settings.resolve Horner.bag "hö√x(5,2.50,5)".toList).outcome =
        .ok "hö√x(5,2.50,5)".toList ∧
      rootCause (Horner.rooted.calculate Horner.bag).outcome = .ok ⟨5300000000000, 10⟩ := by
  have absent : builtin? Horner.name.name = none := by decide +kernel
  have provides : Horner.rooted.Provides (fun _ => none) Horner.name.name
    (Horner.rooted.callee Horner.function) := .host rfl rfl
  have site : Horner.rooted.Site Horner.bag (Horner.name.callText Horner.arguments)
      (Horner.rooted.admitted Horner.bag) fun _ => none := .whole String.toList_ofList
  obtain ⟨resolved, -, called⟩ := calculate_call absent site provides (Horner.spares _)
  exact ⟨resolved.trans (by rfl), called.trans (by decide +kernel)⟩

namespace Horner

/-- Whether the calculation of a call with literals comes to what the function makes of them. -/
def Calls (bag : Bag) (name : FunctionName) (literals : List Literal) : Prop :=
  rootCause ((engine name literals).calculate bag).outcome = rootCause (do
    let values ← literals.mapM (engine name literals).settings.calculation.ofLiteral
    let value ← ((engine name literals).callee function values).outcome
    (engine name literals).settings.result.round value)

instance (bag : Bag) (name : FunctionName) (literals : List Literal) :
    Decidable (Calls bag name literals) := inferInstanceAs (Decidable (_ = _))

/-- A bag that binds a digit. -/
def digitBag : Bag := .single "5" (some (.ofInt 7))

/-- A bound digit takes the place of the literal, so the function is called with another value; and
a constant in front of a root takes the place of a part of the name, even if nothing is bound. -/
theorem not_called_with_literal :
    ¬ Calls digitBag ⟨"f", isFunctionName_f⟩ [five] ∧ ¬ Calls .empty ⟨"E√", by decide⟩ [five] := by
  decide +kernel

end Horner

end Reckoner
