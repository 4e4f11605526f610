import SqlComposer.Proofs.Grammar.Reader
import SqlComposer.Proofs.Writing.Names

namespace SqlComposer.Grammar

open Sql Compose

inductive Symbol
  | blank
  | column (table name : String)
  | word (letters : List Char)

def joins (c d : Char) : Bool := c.isAlpha && d.isAlpha || ['<', '=', '>'].contains c && ['<', '=', '>'].contains d

def glue : Lexeme → List Symbol → List Symbol
  | .name table, .word ['.'] :: .column "" name :: symbols => .column table name :: symbols
  | .name name, symbols => .column "" name :: symbols
  | .char ' ', symbols => .blank :: symbols
  | .char '*', symbols => .column "" "*" :: symbols
  | .char c, .word (d :: letters) :: symbols =>
    if joins c d then .word (c :: d :: letters) :: symbols else .word [c] :: .word (d :: letters) :: symbols
  | .char c, symbols => .word [c] :: symbols
  | .unclosed _, symbols => .word [] :: symbols

def symbols (lexemes : List Lexeme) : List Symbol := lexemes.foldr glue []

def vocabulary : List (String × Token) :=
  [("(", .opening), (")", .closing), ("AND", .connective .and), ("OR", .connective .or),
   ("=", .relation .equal), ("<>", .relation .notEqual), (">", .relation .greaterThan),
   (">=", .relation .greaterOrEqual), ("<", .relation .lowerThan), ("<=", .relation .lowerOrEqual),
   ("LIKE", .relation .like), ("NOT", .not), ("IS", .is), ("NULL", .null), ("+", .step .plus), ("-", .step .minus)]

def tokens? : List Symbol → List SqlValue → Option (List Token)
  | [], values => if values.isEmpty then some [] else none
  | .blank :: symbols, values => tokens? symbols values
  | .column table name :: symbols, values => (tokens? symbols values).map (.operand (.column table name) :: ·)
  | .word letters :: symbols, values =>
    if letters = ['?'] then
      match values with
      | [] => none
      | v :: values => (tokens? symbols values).map (.operand (.value v) :: ·)
    else (vocabulary.lookup (.ofList letters)).bind fun token => (tokens? symbols values).map (token :: ·)

def scan (lexemes : List Lexeme) (values : List SqlValue) : Option (List Token) := tokens? (symbols lexemes) values

def readText (text : String) (values : List SqlValue) : Option Tree := (scan (lexemes text) values).bind read

def readAssignmentText (text : String) (values : List SqlValue) : Option ((String × String) × Tree) :=
  (scan (lexemes text) values).bind readAssignment

inductive Ends : List Lexeme → Prop
  | nil : Ends []
  | blank (rest : List Lexeme) : Ends (.char ' ' :: rest)
  | closing (rest : List Lexeme) : Ends (.char ')' :: rest)

section

variable {rest : List Lexeme} {values : List SqlValue}

theorem glue_alone {c : Char} (alone : c ∈ ['(', ')', '?']) (symbols : List Symbol) :
    glue (.char c) symbols = .word [c] :: symbols := by
  simp only [List.mem_cons, List.not_mem_nil, or_false] at alone
  obtain rfl | rfl | rfl := alone
  all_goals
    cases symbols with
    | nil => rfl
    | cons symbol symbols => cases symbol with
      | blank | column => rfl
      | word letters => cases letters <;> rfl

theorem symbols_alone {c : Char} (alone : c ∈ ['(', ')', '?']) (rest : List Lexeme) :
    symbols (.char c :: rest) = .word [c] :: symbols rest :=
  glue_alone alone (symbols rest)

theorem Ends.symbols_name (ends : Ends rest) (name : String) :
    symbols (.name name :: rest) = .column "" name :: symbols rest := by
  cases ends with
  | nil | blank => rfl
  | closing rest =>
    show glue _ (symbols (.char ')' :: rest)) = _
    rw [symbols_alone (by decide)]
    rfl

theorem Ends.symbols_letter (ends : Ends rest) : symbols (.char 'L' :: rest) = .word ['L'] :: symbols rest := by
  cases ends with
  | nil | blank => rfl
  | closing rest =>
    show glue _ (symbols (.char ')' :: rest)) = _
    rw [symbols_alone (by decide)]
    rfl

theorem Ends.symbols_column (ends : Ends rest) (table name : String) :
    symbols (Pieces.lexemes (columnPieces table name) ++ rest) = .column table name :: symbols rest := by
  have unqualified : symbols (Pieces.lexemes (if name = "*" then [.text "*"] else [.identifier name]) ++ rest) =
      .column "" name :: symbols rest := by
    split
    · next star =>
      subst star
      rfl
    · exact ends.symbols_name name
  by_cases plain : table = ""
  · subst plain
    exact unqualified
  · rw [columnPieces, if_neg plain]
    show glue (.name table) (glue (.char '.')
      (symbols (Pieces.lexemes (if name = "*" then [.text "*"] else [.identifier name]) ++ rest))) = _
    rw [unqualified]
    rfl

theorem Ends.scan_null (ends : Ends rest) (negated : Bool) :
    scan ((if negated then " IS NOT NULL" else " IS NULL").toList.map .char ++ rest) values =
      (scan rest values).map (nullTokens negated ++ ·) := by
  have two (found : Option (List Token)) :
      (found.map (.null :: ·)).map (.is :: ·) = found.map ([.is, .null] ++ ·) := Option.map_map _ _ _
  have three (found : Option (List Token)) :
      ((found.map (.null :: ·)).map (.not :: ·)).map (.is :: ·) = found.map ([.is, .not, .null] ++ ·) := by
    cases found <;> rfl
  cases negated with
  | false =>
    show tokens? ([' ', 'I', 'S', ' ', 'N', 'U', 'L'].foldr (glue ∘ .char) (symbols (.char 'L' :: rest))) values = _
    rw [ends.symbols_letter]
    exact two _
  | true =>
    show tokens? ([' ', 'I', 'S', ' ', 'N', 'O', 'T', ' ', 'N', 'U', 'L'].foldr (glue ∘ .char)
      (symbols (.char 'L' :: rest))) values = _
    rw [ends.symbols_letter]
    exact three _

end

def Token.value? : Token → Option SqlValue
  | .operand (.value v) => some v
  | _ => none

def valuesOf (tokens : List Token) : List SqlValue := tokens.filterMap Token.value?

theorem valuesOf_append (a b : List Token) : valuesOf (a ++ b) = valuesOf a ++ valuesOf b := List.filterMap_append

/-- The pieces are written without fault, and their text is cut into the tokens where the text goes on like this. -/
structure Spells (goesOn : List Lexeme → Prop) (pieces : Pieces) (tokens : List Token) : Prop where
  written : ∀ statement : Statement, ∃ next, statement.writeAll .mysql pieces = (next, none) ∧
    next.values = statement.values ++ valuesOf tokens
  scanned : ∀ {rest}, goesOn rest → ∀ values,
    scan (pieces.lexemes ++ rest) (valuesOf tokens ++ values) = (scan rest values).map (tokens ++ ·)

def Anyhow (_ : List Lexeme) : Prop := True

namespace Spells

variable {a b : Pieces} {first second tokens : List Token} {word : String} {goesOn goesOnToo : List Lexeme → Prop}

theorem append (before : Spells goesOn a first) (behind : Spells goesOnToo b second)
    (meets : ∀ rest, goesOnToo rest → goesOn (b.lexemes ++ rest)) :
    Spells goesOnToo (a ++ b) (first ++ second) where
  written statement := by
    obtain ⟨middle, run, values⟩ := before.written statement
    obtain ⟨next, runBehind, valuesBehind⟩ := behind.written middle
    refine ⟨next, ?_, ?_⟩
    · rw [Statement.writeAll_append, run]
      exact runBehind
    · rw [valuesBehind, values, valuesOf_append, List.append_assoc]
  scanned {rest} ends values := by
    have whole : Pieces.lexemes (a ++ b) ++ rest = a.lexemes ++ (b.lexemes ++ rest) := by simp [Pieces.lexemes]
    rw [whole, valuesOf_append, List.append_assoc, before.scanned (meets rest ends), behind.scanned ends,
      Option.map_map]
    simp [Function.comp_def]

theorem text (valueless : valuesOf tokens = [])
    (scanned : ∀ {rest}, goesOn rest → ∀ values,
      scan (word.toList.map .char ++ rest) values = (scan rest values).map (tokens ++ ·)) :
    Spells goesOn [.text word] tokens where
  written statement := ⟨statement.append word, rfl, by rw [valueless, List.append_nil]; rfl⟩
  scanned {rest} ends values := by
    have word : Pieces.lexemes [.text word] = word.toList.map .char := List.append_nil _
    rw [valueless, word]
    exact scanned ends values

theorem column (table name : String) : Spells Ends (columnPieces table name) [.operand (.column table name)] where
  written statement := by
    refine ⟨(statement.writeAll .mysql (columnPieces table name)).1, ?_, ?_⟩
    · unfold columnPieces
      split <;> split <;> rfl
    · unfold columnPieces
      split <;> split <;> exact (List.append_nil _).symm
  scanned ends values := congrArg (tokens? · values) (ends.symbols_column table name)

theorem argument {bound : Argument} {v : SqlValue} (resolved : Registry.mysql.resolve bound = .ok v) :
    Spells Ends [.argument bound] [.operand (.value v)] where
  written statement := by
    refine ⟨statement.bind v, ?_, rfl⟩
    rw [Statement.writeAll, Statement.write, resolved]
    rfl
  scanned {rest} _ values := congrArg (tokens? · (v :: values)) (symbols_alone (c := '?') (by decide) rest)

theorem opening : Spells Anyhow [.text "("] [.opening] :=
  text rfl fun {rest} _ values => congrArg (tokens? · values) (symbols_alone (c := '(') (by decide) rest)

theorem closing : Spells goesOn [.text ")"] [.closing] :=
  text rfl fun {rest} _ values => congrArg (tokens? · values) (symbols_alone (c := ')') (by decide) rest)

theorem parenthesized (inner : Spells Ends a tokens) :
    Spells Ends (.text "(" :: (a ++ [.text ")"])) (.opening :: tokens ++ [.closing]) :=
  opening.append (inner.append closing fun rest _ => .closing rest) fun _ _ => trivial

theorem linked (before : Spells Ends a first) (link : Spells Anyhow [.text word] tokens)
    (blank : word.toList.head? = some ' ') (behind : Spells Ends b second) :
    Spells Ends (a ++ .text word :: b) (first ++ (tokens ++ second)) := by
  apply before.append (link.append behind fun _ _ => trivial)
  intro rest _
  -- The blank keeps the word off the name before it.
  obtain ⟨letters, begins⟩ := List.head?_eq_some_iff.mp blank
  show Ends (word.toList.map .char ++ b.lexemes ++ rest)
  rw [begins]
  exact .blank _

theorem tested (before : Spells Ends a first) (negated : Bool) :
    Spells Ends (a ++ [.text (if negated then " IS NOT NULL" else " IS NULL")]) (first ++ nullTokens negated) := by
  have test : Spells Ends [.text (if negated then " IS NOT NULL" else " IS NULL")] (nullTokens negated) :=
    text (by cases negated <;> rfl) fun ends _ => ends.scan_null negated
  apply before.append test
  intro rest _
  cases negated <;> exact .blank _

theorem connective (connective : Connective) : Spells Anyhow [.text connective.text] [.connective connective] :=
  text rfl fun _ _ => by cases connective <;> rfl

theorem parts {α : Type} (pieces : α → Pieces) (tree : α → Tree) (connective : Connective) (first : α)
    (others : List α) (spelled : ∀ part ∈ first :: others, Spells Ends (pieces part) (tree part).tokens) :
    Spells Ends (pieces first ++ others.flatMap fun next => .text connective.text :: pieces next)
      (Tree.tokensList connective ((first :: others).map tree)) := by
  induction others generalizing first with
  | nil => simpa [Tree.tokensList] using spelled
  | cons second others ih =>
    obtain ⟨before, behind⟩ := List.forall_mem_cons.mp spelled
    exact before.linked (.connective connective) (by cases connective <;> rfl) (ih second behind)

theorem exists_text (spelled : Spells Ends a tokens) (apart : a.Apart false) (operation : String) :
    ∃ text values, Statement.compose .mysql operation a = .ok (text, values) ∧
      scan (lexemes text) values = some tokens := by
  obtain ⟨next, run, values⟩ := spelled.written { operation }
  have built : Statement.compose .mysql operation a = .ok (next.text, next.values) := by rw [Statement.compose, run]
  refine ⟨_, _, built, ?_⟩
  have whole := spelled.scanned .nil []
  rw [List.append_nil, List.append_nil] at whole
  rw [(shown_compose built).1, lexemes_shown apart, values]
  exact whole.trans (congrArg some (List.append_nil tokens))

end Spells

end SqlComposer.Grammar
