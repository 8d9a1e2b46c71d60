import SignedOrders.Proofs.Query.Tokens

/-!
# Query documents

A document is one mutation: its name, the variables it declares, and the calls it makes, each with
the fields that are asked of the answer.  This is the part of the query language that a client
needs who passes all values in variables:

    document   = "mutation" name [ "(" variable+ ")" ] "{" field+ "}"
    variable   = "$" name ":" name [ "!" ]
    field      = [ name ":" ] name [ "(" argument+ ")" ] [ "{" field+ "}" ]
    argument   = name ":" "$" name

The reader of documents is exact: the tokens of a document are read as this document, and nothing
else is (`Document.ofTokens?_eq_some_iff`).  So a text is that of at most one document.
-/

namespace SignedOrders.Query

/-- A variable that a mutation declares. -/
structure Variable where
  name : String
  type : String
  required : Bool
  deriving DecidableEq, Repr

/-- An argument of a call, whose value is a variable. -/
structure Argument where
  name : String
  value : String
  deriving DecidableEq, Repr

/-- The fields that are asked for, one after another: each may have a label under which it is
answered, arguments, and fields that are asked of its own answer. -/
inductive Selection where
  | nil
  | field (label : Option String) (name : String) (arguments : List Argument)
      (inner others : Selection)
  deriving DecidableEq, Repr

/-- One field of a selection. -/
structure Call where
  label : Option String
  name : String
  arguments : List Argument
  inner : Selection
  deriving DecidableEq, Repr

namespace Selection

/-- The fields of a selection. -/
def calls : Selection → List Call
  | .nil => []
  | .field label name arguments inner others => ⟨label, name, arguments, inner⟩ :: others.calls

/-- The selection of the given fields. -/
def ofCalls : List Call → Selection
  | [] => .nil
  | c :: calls => .field c.label c.name c.arguments c.inner (ofCalls calls)

theorem calls_ofCalls (l : List Call) : (ofCalls l).calls = l := by
  induction l with
  | nil => rfl
  | cons c l ih => rw [ofCalls, calls, ih]

end Selection

/-- A mutation. -/
structure Document where
  operation : String
  declarations : List Variable
  selection : Selection
  deriving DecidableEq, Repr

/-! ## Tokens of documents -/

/-- Tokens between two marks; no tokens stand without the marks. -/
def enclosed (opening closing : Char) (tokens : List Token) : List Token :=
  if tokens = [] then [] else .mark opening :: tokens ++ [.mark closing]

def Variable.tokens (v : Variable) : List Token :=
  [.mark '$', .name v.name, .mark ':', .name v.type] ++ if v.required then [.mark '!'] else []

def Argument.tokens (a : Argument) : List Token :=
  [.name a.name, .mark ':', .mark '$', .name a.value]

/-- The name of a field, after its label. -/
def headTokens (label : Option String) (name : String) : List Token :=
  match label with
  | none => [.name name]
  | some label => [.name label, .mark ':', .name name]

def Selection.tokens : Selection → List Token
  | .nil => []
  | .field label name arguments inner others =>
    headTokens label name ++ enclosed '(' ')' (arguments.flatMap Argument.tokens) ++
      enclosed '\x7b' '\x7d' inner.tokens ++ others.tokens

def Call.tokens (c : Call) : List Token :=
  headTokens c.label c.name ++ enclosed '(' ')' (c.arguments.flatMap Argument.tokens) ++
    enclosed '\x7b' '\x7d' c.inner.tokens

theorem Selection.tokens_ofCalls (l : List Call) :
    (ofCalls l).tokens = l.flatMap Call.tokens := by
  induction l with
  | nil => rfl
  | cons c l ih => rw [ofCalls, tokens, ih, List.flatMap_cons, Call.tokens]

def Document.tokens (d : Document) : List Token :=
  .name "mutation" :: .name d.operation ::
    (enclosed '(' ')' (d.declarations.flatMap Variable.tokens) ++
      enclosed '\x7b' '\x7d' d.selection.tokens)

/-! ## Reading documents -/

/-- What stands between an opening mark and the closing one, and what follows; nothing, if the
opening mark is missing.  There must be something between the marks. -/
def readGroup {β : Type} [DecidableEq β] (opening : Char) (nothing : β)
    (read : List Token → Option (β × List Token)) (tokens : List Token) :
    Option (β × List Token) :=
  if tokens.head? = some (.mark opening) then
    (read tokens.tail).filter fun found => found.1 ≠ nothing
  else some (nothing, tokens)

/-- The variables up to the closing parenthesis, and what follows. -/
def readVariables : List Token → Option (List Variable × List Token)
  | .mark ')' :: rest => some ([], rest)
  | .mark '$' :: .name name :: .mark ':' :: .name type :: .mark '!' :: rest =>
    (readVariables rest).map fun found => (⟨name, type, true⟩ :: found.1, found.2)
  | .mark '$' :: .name name :: .mark ':' :: .name type :: rest =>
    (readVariables rest).map fun found => (⟨name, type, false⟩ :: found.1, found.2)
  | _ => none

/-- The arguments up to the closing parenthesis, and what follows. -/
def readArguments : List Token → Option (List Argument × List Token)
  | .mark ')' :: rest => some ([], rest)
  | .name name :: .mark ':' :: .mark '$' :: .name value :: rest =>
    (readArguments rest).map fun found => (⟨name, value⟩ :: found.1, found.2)
  | _ => none

/-- The label and the name of a field, and what follows. -/
def readHead : List Token → Option ((Option String × String) × List Token)
  | .name label :: .mark ':' :: .name name :: rest => some ((some label, name), rest)
  | .name name :: rest => some ((none, name), rest)
  | _ => none

/-- The fields up to the closing brace, and what follows.  Every step down or along costs one of
`fuel`. -/
def readSelection : Nat → List Token → Option (Selection × List Token)
  | 0, _ => none
  | fuel + 1, tokens =>
    if tokens.head? = some (.mark '\x7d') then some (.nil, tokens.tail)
    else do
      let ((label, name), rest) ← readHead tokens
      let (arguments, rest) ← readGroup '(' [] readArguments rest
      let (inner, rest) ← readGroup '\x7b' .nil (readSelection fuel) rest
      let (others, rest) ← readSelection fuel rest
      return (.field label name arguments inner others, rest)

/-- The document with these tokens. -/
def Document.ofTokens? : List Token → Option Document
  | .name "mutation" :: .name operation :: rest => do
    let (declarations, rest) ← readGroup '(' [] readVariables rest
    let (selection, rest) ← readGroup '\x7b' .nil (readSelection rest.length) rest
    if selection = .nil ∨ rest ≠ [] then none else some ⟨operation, declarations, selection⟩
  | _ => none

/-- The document with this text. -/
def Document.ofText? (text : String) : Option Document := (tokens? text.toList).bind ofTokens?

/-! ## Documents are read back -/

section

variable {tokens rest : List Token} {fuel : Nat}

/-- **A group is read back**, or nothing if there is none. -/
theorem readGroup_enclosed {β : Type} [DecidableEq β] {opening closing : Char} {nothing x : β}
    {read : List Token → Option (β × List Token)}
    (back : read (tokens ++ .mark closing :: rest) = some (x, rest))
    (empty : x = nothing ↔ tokens = []) (other : rest.head? ≠ some (.mark opening)) :
    readGroup opening nothing read (enclosed opening closing tokens ++ rest) = some (x, rest) := by
  unfold enclosed readGroup
  split
  · next none =>
    rw [List.nil_append, if_neg other, empty.2 none]
  · next some =>
    rw [List.append_assoc, List.cons_append, List.head?_cons, if_pos rfl, List.tail_cons,
      List.singleton_append, back]
    simpa using fun same => some (empty.1 same)

theorem readVariables_cons (v : Variable) (next : rest.head? ≠ some (.mark '!')) :
    readVariables (v.tokens ++ rest) =
      (readVariables rest).map fun found => (v :: found.1, found.2) := by
  obtain ⟨name, type, required⟩ := v
  cases required with
  | true => rfl
  | false =>
    change readVariables (.mark '$' :: .name name :: .mark ':' :: .name type :: rest) = _
    rw [readVariables]
    rintro rest rfl
    exact next rfl

theorem readVariables_tokens (declarations : List Variable) (rest : List Token) :
    readVariables (declarations.flatMap Variable.tokens ++ .mark ')' :: rest) =
      some (declarations, rest) := by
  induction declarations with
  | nil => rfl
  | cons v declarations ih =>
    rw [List.flatMap_cons, List.append_assoc, readVariables_cons, ih, Option.map_some]
    cases declarations <;> simp [Variable.tokens]

theorem readArguments_tokens (arguments : List Argument) (rest : List Token) :
    readArguments (arguments.flatMap Argument.tokens ++ .mark ')' :: rest) =
      some (arguments, rest) := by
  induction arguments with
  | nil => rfl
  | cons a arguments ih =>
    rw [List.flatMap_cons, List.append_assoc]
    change (readArguments (arguments.flatMap Argument.tokens ++ .mark ')' :: rest)).map _ = _
    rw [ih]
    rfl

theorem arguments_eq_nil_iff (arguments : List Argument) :
    arguments = [] ↔ arguments.flatMap Argument.tokens = [] := by
  cases arguments <;> simp [Argument.tokens]

theorem variables_eq_nil_iff (declarations : List Variable) :
    declarations = [] ↔ declarations.flatMap Variable.tokens = [] := by
  cases declarations <;> simp [Variable.tokens]

theorem readHead_tokens (label : Option String) (name : String)
    (next : rest.head? ≠ some (.mark ':')) :
    readHead (headTokens label name ++ rest) = some ((label, name), rest) := by
  cases label with
  | some label => rfl
  | none =>
    change readHead (.name name :: rest) = _
    rw [readHead]
    rintro name rest rfl
    exact next rfl

/-- Fields and the closing brace start with a name or with this brace. -/
theorem Selection.head?_tokens (s : Selection) (rest : List Token) (c : Char) (h : c ≠ '\x7d') :
    (s.tokens ++ .mark '\x7d' :: rest).head? ≠ some (.mark c) := by
  cases s with
  | nil => simpa [tokens] using h.symm
  | field label name arguments inner others => cases label <;> simp [tokens, headTokens]

/-- A group that may be missing starts with its mark or with what follows. -/
theorem head?_enclosed (opening closing : Char) (tokens : List Token) {c : Char} (h : c ≠ opening)
    (next : rest.head? ≠ some (.mark c)) :
    (enclosed opening closing tokens ++ rest).head? ≠ some (.mark c) := by
  unfold enclosed
  split
  · exact next
  · simpa using h.symm

theorem length_le_enclosed (opening closing : Char) (tokens : List Token) :
    tokens.length ≤ (enclosed opening closing tokens).length := by
  unfold enclosed
  split
  · next none => exact Nat.le_of_eq (congrArg List.length none)
  · simp only [List.length_append, List.length_cons]
    omega

theorem headTokens_ne_nil (label : Option String) (name : String) : headTokens label name ≠ [] := by
  cases label <;> exact List.cons_ne_nil _ _

theorem Selection.eq_nil_iff (s : Selection) : s = .nil ↔ s.tokens = [] := by
  cases s with
  | nil => exact iff_of_true rfl rfl
  | field label name arguments inner others =>
    refine iff_of_false Selection.noConfusion fun none => headTokens_ne_nil label name ?_
    simp only [tokens, List.append_eq_nil_iff] at none
    exact none.1.1.1

/-- A field is read back before others, if the fields inside it are. -/
theorem readSelection_field {label : Option String} {name : String} {arguments : List Argument}
    {inner others : Selection} {after : List Token}
    (readInner : readSelection fuel (inner.tokens ++ .mark '\x7d' :: after) = some (inner, after))
    (readOthers : readSelection fuel after = some (others, rest))
    (next : ∀ c ≠ '\x7d', after.head? ≠ some (.mark c)) :
    readSelection (fuel + 1) (headTokens label name ++
        (enclosed '(' ')' (arguments.flatMap Argument.tokens) ++
          (enclosed '\x7b' '\x7d' inner.tokens ++ after))) =
      some (.field label name arguments inner others, rest) := by
  have innerNext (c : Char) (apart : c ≠ '\x7d') (other : c ≠ '\x7b') :
      (enclosed '\x7b' '\x7d' inner.tokens ++ after).head? ≠ some (.mark c) :=
    head?_enclosed _ _ _ other (next c apart)
  have head := readHead_tokens label name
    (head?_enclosed '(' ')' (arguments.flatMap Argument.tokens)
      (by decide) (innerNext ':' (by decide) (by decide)))
  have group := readGroup_enclosed (readArguments_tokens arguments _)
    (arguments_eq_nil_iff arguments) (innerNext '(' (by decide) (by decide))
  have innerGroup := readGroup_enclosed readInner inner.eq_nil_iff (next '\x7b' (by decide))
  have started (tokens : List Token) :
      (headTokens label name ++ tokens).head? ≠ some (.mark '\x7d') := by
    cases label <;> simp [headTokens]
  rw [readSelection, if_neg (started _), head]
  change (readGroup '(' _ _ _).bind _ = _
  rw [group]
  change (readGroup '\x7b' _ _ _).bind _ = _
  rw [innerGroup]
  change (readSelection fuel after).bind _ = _
  rw [readOthers]
  rfl

/-- **Fields are read back**, with fuel for each of their tokens. -/
theorem readSelection_tokens (s : Selection) (rest : List Token) (h : s.tokens.length < fuel) :
    readSelection fuel (s.tokens ++ .mark '\x7d' :: rest) = some (s, rest) := by
  induction s generalizing fuel rest with
  | nil =>
    cases fuel with
    | zero => cases h
    | succ fuel => rfl
  | field label name arguments inner others readInner readOthers =>
    cases fuel with
    | zero => cases h
    | succ fuel =>
      have less : inner.tokens.length < fuel ∧ others.tokens.length < fuel := by
        have head := List.length_pos_iff.2 (headTokens_ne_nil label name)
        have group := length_le_enclosed '\x7b' '\x7d' inner.tokens
        simp only [Selection.tokens, List.length_append] at h
        omega
      rw [Selection.tokens, List.append_assoc, List.append_assoc, List.append_assoc]
      exact readSelection_field (readInner _ less.1) (readOthers _ less.2)
        (others.head?_tokens rest)

/-- The tokens of a document that declares variables and asks for anything. -/
theorem Document.tokens_eq {d : Document} (declares : d.declarations ≠ [])
    (asks : d.selection ≠ .nil) :
    d.tokens = [.name "mutation", .name d.operation, .mark '('] ++
      (d.declarations.flatMap Variable.tokens ++ ([.mark ')', .mark '\x7b'] ++
        (d.selection.tokens ++ [.mark '\x7d']))) := by
  have parentheses : d.declarations.flatMap Variable.tokens ≠ [] := fun none =>
    declares ((variables_eq_nil_iff _).2 none)
  have braces : d.selection.tokens ≠ [] := fun none => asks (d.selection.eq_nil_iff.2 none)
  simp only [tokens, enclosed, if_neg parentheses, if_neg braces, List.cons_append,
    List.append_assoc, List.nil_append]

/-- **A document is read back from its tokens**, if it asks for anything. -/
theorem Document.ofTokens?_tokens (d : Document) (asks : d.selection ≠ .nil) :
    ofTokens? d.tokens = some d := by
  obtain ⟨operation, declarations, selection⟩ := d
  have braces : enclosed '\x7b' '\x7d' selection.tokens =
      .mark '\x7b' :: selection.tokens ++ [.mark '\x7d'] :=
    if_neg fun none => asks (selection.eq_nil_iff.2 none)
  have group := readGroup_enclosed (readVariables_tokens declarations _)
    (variables_eq_nil_iff declarations)
    (show (enclosed '\x7b' '\x7d' selection.tokens).head? ≠ some (.mark '(') by simp [braces])
  have enough : selection.tokens.length < (enclosed '\x7b' '\x7d' selection.tokens).length := by
    simp only [braces, List.length_append, List.length_cons]
    omega
  have fields :
      readGroup '\x7b' Selection.nil _ (enclosed '\x7b' '\x7d' selection.tokens ++ []) = _ :=
    readGroup_enclosed (readSelection_tokens selection [] enough) selection.eq_nil_iff nofun
  rw [List.append_nil] at fields
  change (readGroup '(' _ _ _).bind _ = _
  rw [group]
  change (readGroup '\x7b' _ _ _).bind _ = _
  rw [fields]
  exact if_neg (by simpa using asks)

/-! ## Nothing else is read -/

theorem eq_of_readVariables {declarations : List Variable}
    (h : readVariables tokens = some (declarations, rest)) :
    tokens = declarations.flatMap Variable.tokens ++ .mark ')' :: rest := by
  fun_induction readVariables tokens generalizing declarations with
  | case1 => cases h; rfl
  | case2 name type after ih =>
    obtain ⟨⟨others, rest⟩, read, same⟩ := Option.map_eq_some_iff.1 h
    cases same
    rw [ih read]
    rfl
  | case3 name type after next ih =>
    obtain ⟨⟨others, rest⟩, read, same⟩ := Option.map_eq_some_iff.1 h
    cases same
    rw [ih read]
    rfl
  | case4 => cases h

theorem eq_of_readArguments {arguments : List Argument}
    (h : readArguments tokens = some (arguments, rest)) :
    tokens = arguments.flatMap Argument.tokens ++ .mark ')' :: rest := by
  fun_induction readArguments tokens generalizing arguments with
  | case1 => cases h; rfl
  | case2 name value after ih =>
    obtain ⟨⟨others, rest⟩, read, same⟩ := Option.map_eq_some_iff.1 h
    cases same
    rw [ih read]
    rfl
  | case3 => cases h

theorem eq_of_readHead {label : Option String} {name : String}
    (h : readHead tokens = some ((label, name), rest)) :
    tokens = headTokens label name ++ rest := by
  unfold readHead at h
  split at h <;> cases h
  · rfl
  · rfl

/-- A group is read from its tokens between the marks, or from none. -/
theorem eq_of_readGroup {β : Type} [DecidableEq β] {opening : Char} {nothing x : β}
    {read : List Token → Option (β × List Token)} (closing : Char) (tokensOf : β → List Token)
    (sound : ∀ ts x rest, read ts = some (x, rest) → ts = tokensOf x ++ .mark closing :: rest)
    (empty : ∀ x, x = nothing ↔ tokensOf x = [])
    (h : readGroup opening nothing read tokens = some (x, rest)) :
    tokens = enclosed opening closing (tokensOf x) ++ rest := by
  unfold readGroup at h
  split at h
  · next opened =>
    obtain ⟨after, rfl⟩ : ∃ after, tokens = .mark opening :: after :=
      List.head?_eq_some_iff.1 opened
    obtain ⟨found, full⟩ := Option.filter_eq_some_iff.1 h
    have full : tokensOf x ≠ [] := fun none => by simp [(empty x).2 none] at full
    have inside : after = tokensOf x ++ .mark closing :: rest := sound _ _ _ found
    rw [inside, enclosed, if_neg full, List.append_assoc]
    rfl
  · cases h
    rw [enclosed, if_pos ((empty _).1 rfl)]
    rfl

/-- **Only the tokens of fields are read as fields.** -/
theorem eq_of_readSelection {s : Selection} (h : readSelection fuel tokens = some (s, rest)) :
    tokens = s.tokens ++ .mark '\x7d' :: rest := by
  induction fuel generalizing tokens s rest with
  | zero => cases h
  | succ fuel ih =>
    rw [readSelection] at h
    split at h
    · next closed =>
      obtain ⟨after, rfl⟩ : ∃ after, tokens = .mark '\x7d' :: after :=
        List.head?_eq_some_iff.1 closed
      cases h
      rfl
    · obtain ⟨⟨⟨label, name⟩, rest₁⟩, head, h⟩ := Option.bind_eq_some_iff.1 h
      obtain ⟨⟨arguments, rest₂⟩, group, h⟩ := Option.bind_eq_some_iff.1 h
      obtain ⟨⟨inner, rest₃⟩, fields, h⟩ := Option.bind_eq_some_iff.1 h
      obtain ⟨⟨others, rest₄⟩, more, h⟩ := Option.bind_eq_some_iff.1 h
      cases h
      rw [eq_of_readHead head,
        eq_of_readGroup ')' (·.flatMap Argument.tokens)
          (fun _ _ _ => eq_of_readArguments) arguments_eq_nil_iff group,
        eq_of_readGroup '\x7d' Selection.tokens (fun _ _ _ => ih) Selection.eq_nil_iff fields,
        ih more]
      simp only [Selection.tokens, List.append_assoc]

/-- **The tokens of a document are read as this document, and nothing else is.** -/
theorem Document.ofTokens?_eq_some_iff {d : Document} :
    ofTokens? tokens = some d ↔ tokens = d.tokens ∧ d.selection ≠ .nil := by
  constructor
  · intro h
    unfold ofTokens? at h
    split at h
    · next operation after =>
      obtain ⟨⟨declarations, rest₁⟩, group, h⟩ := Option.bind_eq_some_iff.1 h
      obtain ⟨⟨selection, rest₂⟩, fields, h⟩ := Option.bind_eq_some_iff.1 h
      dsimp only at fields h
      split at h
      · cases h
      · next whole =>
        rw [not_or, Decidable.not_not] at whole
        obtain ⟨asks, rfl⟩ := whole
        cases h
        refine ⟨?_, asks⟩
        rw [eq_of_readGroup ')' (·.flatMap Variable.tokens)
          (fun _ _ _ => eq_of_readVariables) variables_eq_nil_iff group,
          eq_of_readGroup '\x7d' Selection.tokens (fun _ _ _ => eq_of_readSelection)
            Selection.eq_nil_iff fields, List.append_nil]
        rfl
    · cases h
  · rintro ⟨rfl, asks⟩
    exact ofTokens?_tokens d asks

/-- Values stand in variables, so one that is written out is not read. -/
example :
    Document.ofText? "mutation M($n: Int!) \x7b\n a: f(x: $n) \x7b id, at \x7d\n\x7d" =
        some ⟨"M", [⟨"n", "Int", true⟩],
          .ofCalls [⟨some "a", "f", [⟨"x", "n"⟩],
            .ofCalls [⟨none, "id", [], .nil⟩, ⟨none, "at", [], .nil⟩]⟩]⟩ ∧
      Document.ofText? "mutation M \x7b a: f(x: 1) \x7d" = none := by
  decide +kernel

end

end SignedOrders.Query
