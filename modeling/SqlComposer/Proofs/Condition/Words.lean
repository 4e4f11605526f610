import SqlComposer.Compose.Statement
import SqlComposer.Proofs.Condition.Tree
import SqlComposer.Proofs.Expression.Conditions
/-!
Texts in a condition that are read as several words, such as a disjunction that the caller has written out.

What can be read on its own can be read wherever an operand is expected, but it need not be one operand there: only in
parentheses is it, `isOperand_group`.
-/

namespace SqlComposer.Sql

open Compose

structure Lexer where
  words : String → List Token
  spelled : ∀ (text : String) (statement : Statement),
    statement.writeAll .mysql ((words text).flatMap Token.pieces) = statement.writeAll .mysql [.text text]

def Token.words (lexer : Lexer) : Token → List Token
  | .predicate (.ofNode (.raw text)) => lexer.words text
  | token => [token]

def Expr.words (lexer : Lexer) (expr : Expr) : List Token := expr.tokens.flatMap (Token.words lexer)

variable {lexer : Lexer}

theorem Token.writeAll_words (token : Token) (statement : Statement) :
    statement.writeAll .mysql ((token.words lexer).flatMap pieces) = statement.writeAll .mysql token.pieces := by
  unfold words
  split
  · next text =>
    rw [lexer.spelled]
    exact congrArg _ (pieces_raw text).symm
  · rw [List.flatMap_singleton]

theorem Expr.writeAll_words (expr : Expr) (statement : Statement) :
    statement.writeAll .mysql ((expr.words lexer).flatMap Token.pieces) =
      statement.writeAll .mysql (Registry.mysql.pieces expr) := by
  rw [expr.pieces_eq_tokens, words]
  induction expr.tokens generalizing statement with
  | nil => rfl
  | cons token tokens ih =>
    simp only [List.flatMap_cons, List.flatMap_append, Statement.writeAll_append, Token.writeAll_words, ih]

namespace Reader

def under (outer : List (Connective × Level)) : Reader → Reader
  | .expects link level inner => .expects link level (inner ++ outer)
  | .follows level inner => .follows level (inner ++ outer)

theorem advance?_under {reader next : Reader} {token : Token} (advanced : reader.advance? token = some next)
    (outer : List (Connective × Level)) : (reader.under outer).advance? token = some (next.under outer) := by
  cases reader with
  | expects link level inner => cases token <;> cases advanced <;> rfl
  | follows level inner => cases inner <;> cases token <;> cases advanced <;> rfl

theorem foldlM_under {reader final : Reader} {tokens : List Token}
    (run : tokens.foldlM advance? reader = some final) (outer : List (Connective × Level)) :
    tokens.foldlM advance? (reader.under outer) = some (final.under outer) := by
  induction tokens generalizing reader with
  | nil =>
    obtain rfl := Option.some.inj run
    rfl
  | cons token tokens ih =>
    obtain ⟨next, advanced, rest⟩ := Option.bind_eq_some_iff.mp run
    rw [List.foldlM_cons, advance?_under advanced, Option.bind_eq_bind, Option.bind_some]
    exact ih rest

inductive Alike : Reader → Reader → Prop
  | expects {link link' : Connective} {level level' : Level} {inner inner' : List (Connective × Level)} :
      inner.length = inner'.length → Alike (.expects link level inner) (.expects link' level' inner')
  | follows {level level' : Level} {inner inner' : List (Connective × Level)} :
      inner.length = inner'.length → Alike (.follows level inner) (.follows level' inner')

theorem advance?_connective (level : Level) (outer : List (Connective × Level)) (word : Connective) :
    (follows level outer).advance? (.connective word) = some (.expects word level outer) := by
  cases outer <;> rfl

theorem Alike.advance? {reader other next : Reader} {token : Token} (alike : Alike reader other)
    (advanced : reader.advance? token = some next) :
    ∃ next', other.advance? token = some next' ∧ Alike next next' := by
  cases alike with
  | expects deep => cases token with
    | opening =>
      cases advanced
      exact ⟨_, rfl, .expects (by simp [deep])⟩
    | predicate expr =>
      cases advanced
      exact ⟨_, rfl, .follows deep⟩
    | closing | connective word => cases advanced
  | @follows _ _ inner inner' deep => cases token with
    | opening | predicate expr => cases inner <;> cases advanced
    | connective word =>
      rw [advance?_connective] at advanced ⊢
      cases advanced
      exact ⟨_, rfl, .expects deep⟩
    | closing => cases inner with
      | nil => cases advanced
      | cons entry inner =>
        obtain ⟨entry', inner', rfl⟩ := List.exists_cons_of_length_eq_add_one deep.symm
        cases advanced
        exact ⟨_, rfl, .follows (by simpa using deep)⟩

theorem Alike.foldlM {reader other final : Reader} {tokens : List Token} (alike : Alike reader other)
    (run : tokens.foldlM Reader.advance? reader = some final) :
    ∃ final', tokens.foldlM Reader.advance? other = some final' ∧ Alike final final' := by
  induction tokens generalizing reader other with
  | nil =>
    obtain rfl := Option.some.inj run
    exact ⟨other, rfl, alike⟩
  | cons token tokens ih =>
    obtain ⟨next, advanced, rest⟩ := Option.bind_eq_some_iff.mp run
    obtain ⟨next', advancedToo, alike⟩ := alike.advance? advanced
    rw [List.foldlM_cons, advancedToo, Option.bind_eq_bind, Option.bind_some]
    exact ih alike rest

end Reader

def readLevel (tokens : List Token) : Option Level :=
  (tokens.foldlM Reader.advance? .start).bind fun
    | .follows level [] => some level
    | _ => none

theorem readLevel_eq_some_iff {tokens : List Token} {level : Level} :
    readLevel tokens = some level ↔ tokens.foldlM Reader.advance? .start = some (.follows level []) := by
  rw [readLevel, Option.bind_eq_some_iff]
  constructor
  · rintro ⟨final, run, shown⟩
    split at shown
    · rw [run, Option.some.inj shown]
    · cases shown
  · intro run
    exact ⟨_, run, rfl⟩

theorem read_eq_map (tokens : List Token) : read tokens = (readLevel tokens).map Level.formula := by
  rw [read, readLevel]
  cases tokens.foldlM Reader.advance? .start with
  | none => rfl
  | some final =>
    cases final with
    | expects => rfl
    | follows level outer => cases outer <;> rfl

theorem foldlM_of_readLevel {tokens : List Token} {level : Level} (readable : readLevel tokens = some level)
    (outer : List (Connective × Level)) :
    tokens.foldlM Reader.advance? (.expects .and {} outer) = some (.follows level outer) :=
  Reader.foldlM_under (readLevel_eq_some_iff.mp readable) outer

theorem exists_foldlM_of_readLevel {tokens : List Token} {level : Level} (readable : readLevel tokens = some level)
    (link : Connective) (before : Level) (outer : List (Connective × Level)) :
    ∃ after, tokens.foldlM Reader.advance? (.expects link before outer) = some (.follows after outer) := by
  have alike : Reader.Alike .start (.expects link before []) := .expects rfl
  obtain ⟨final, run, same⟩ := alike.foldlM (readLevel_eq_some_iff.mp readable)
  cases same with
  | @follows _ after _ inner shallow =>
    obtain rfl := List.length_eq_zero_iff.mp shallow.symm
    exact ⟨after, Reader.foldlM_under run outer⟩

def IsOperand (tokens : List Token) (formula : Formula) : Prop :=
  ∀ link level outer, tokens.foldlM Reader.advance? (.expects link level outer) =
    some (.follows (level.extend link formula) outer)

theorem IsOperand.readLevel_eq {tokens : List Token} {formula : Formula} (operand : IsOperand tokens formula) :
    readLevel tokens = some ⟨[], [formula]⟩ :=
  readLevel_eq_some_iff.mpr (operand .and {} [])

theorem exists_foldlM_rest (connective : Connective) {exprs : List Expr}
    (readable : ∀ expr ∈ exprs, (readLevel (expr.words lexer)).isSome = true) (level : Level)
    (outer : List (Connective × Level)) :
    ∃ after, (exprs.flatMap fun expr => .connective connective :: expr.words lexer).foldlM Reader.advance?
      (.follows level outer) = some (.follows after outer) := by
  induction exprs generalizing level with
  | nil => exact ⟨level, rfl⟩
  | cons expr exprs ih =>
    obtain ⟨first, rest⟩ := List.forall_mem_cons.mp readable
    obtain ⟨own, shown⟩ := Option.isSome_iff_exists.mp first
    obtain ⟨middle, run⟩ := exists_foldlM_of_readLevel shown connective level outer
    obtain ⟨after, runRest⟩ := ih rest middle
    refine ⟨after, ?_⟩
    rw [List.flatMap_cons, List.cons_append, List.foldlM_cons, Reader.advance?_connective, Option.bind_eq_bind,
      Option.bind_some, List.foldlM_append, run]
    exact runRest

theorem words_group (connective : Connective) (first : Expr) (rest : List Expr) :
    (Expr.group (.raw "(" :: first ::
        rest.flatMap (fun next => [.raw connective.text, next]) ++ [.raw ")"])).words lexer =
      .opening :: (first.words lexer ++ (rest.flatMap fun next => .connective connective :: next.words lexer) ++
        [.closing]) := by
  rw [Expr.words, tokens_group]
  simp only [List.flatMap_cons, List.flatMap_append, List.flatMap_assoc, List.flatMap_nil, List.append_nil]
  rfl

theorem isOperand_of_inside (connective : Connective) {first : Expr} {rest : List Expr} {inside : Level}
    (shown : readLevel (first.words lexer ++ rest.flatMap fun next => .connective connective :: next.words lexer) =
      some inside) :
    IsOperand ((Expr.group (.raw "(" :: first ::
      rest.flatMap (fun next => [.raw connective.text, next]) ++ [.raw ")"])).words lexer) inside.formula := by
  intro link level outer
  rw [words_group, List.foldlM_cons, Reader.advance?, Option.bind_eq_bind, Option.bind_some, List.foldlM_append,
    foldlM_of_readLevel shown]
  rfl

theorem isOperand_group (connective : Connective) {first : Expr} {rest : List Expr}
    (readable : ∀ expr ∈ first :: rest, (readLevel (expr.words lexer)).isSome = true) :
    ∃ formula, IsOperand ((Expr.group (.raw "(" :: first ::
      rest.flatMap (fun next => [.raw connective.text, next]) ++ [.raw ")"])).words lexer) formula := by
  obtain ⟨readableFirst, readableRest⟩ := List.forall_mem_cons.mp readable
  obtain ⟨own, shown⟩ := Option.isSome_iff_exists.mp readableFirst
  obtain ⟨inside, run⟩ := exists_foldlM_rest connective readableRest own []
  refine ⟨inside.formula, isOperand_of_inside connective (readLevel_eq_some_iff.mpr ?_)⟩
  rw [List.foldlM_append, readLevel_eq_some_iff.mp shown]
  exact run

theorem keptByJoins_isOperand :
    KeptByJoins fun expr => ∃ formula, IsOperand (expr.words lexer) formula where
  join connective operands operand expr joined := by
    obtain rfl | ⟨first, rest, rfl, rfl⟩ := join?_eq_some (Option.mem_toList.mp joined)
    · exact operand expr List.mem_cons_self
    · refine isOperand_group connective fun part member => ?_
      obtain ⟨formula, isOperand⟩ := operand part member
      rw [isOperand.readLevel_eq, Option.isSome_some]

theorem isOperand_keyset (lexer : Lexer) {sorts cursor : List Expr} {keys : Expr}
    (bounded : keyset sorts cursor = some keys) : ∃ formula, IsOperand (keys.words lexer) formula := by
  have comparisons : ∀ key ∈ (sorts.map sortColumn).zip cursor, ∀ operator,
      ∃ formula, IsOperand ((Expr.comparison operator key.1.1 key.2).words lexer) formula := by
    intro key _ operator
    exact ⟨.predicate (.comparison operator key.1.1 key.2), fun _ _ _ => rfl⟩
  exact keptByJoins_isOperand.keyset comparisons keys (Option.mem_toList.mpr bounded)

def predicateOf (pending : List Char) : List Token :=
  if pending.isEmpty then [] else [.predicate (.raw (String.ofList pending))]

def scan (pending : List Char) : List Char → List Token
  | '(' :: rest => predicateOf pending ++ .opening :: scan [] rest
  | ')' :: rest => predicateOf pending ++ .closing :: scan [] rest
  | ' ' :: 'A' :: 'N' :: 'D' :: ' ' :: rest => predicateOf pending ++ .connective .and :: scan [] rest
  | ' ' :: 'O' :: 'R' :: ' ' :: rest => predicateOf pending ++ .connective .or :: scan [] rest
  | c :: rest => scan (pending ++ [c]) rest
  | [] => predicateOf pending

theorem append_append (statement : Statement) (a b : String) :
    (statement.append a).append b = statement.append (a ++ b) := by
  simp [Statement.append, String.append_assoc]

theorem writeAll_predicateOf (pending : List Char) (rest : List Token) (statement : Statement) :
    statement.writeAll .mysql ((predicateOf pending ++ rest).flatMap Token.pieces) =
      (statement.append (String.ofList pending)).writeAll .mysql (rest.flatMap Token.pieces) := by
  cases pending with
  | nil =>
    have empty : statement.append (String.ofList []) = statement := by simp [Statement.append]
    rw [empty]
    rfl
  | cons c pending =>
    have filled : predicateOf (c :: pending) = [.predicate (.raw (String.ofList (c :: pending)))] := rfl
    rw [filled, List.singleton_append, List.flatMap_cons, Token.pieces_raw]
    rfl

theorem writeAll_delimiter {token : Token} (word : List Char) (spelled : token.pieces = [.text (String.ofList word)])
    {pending text : List Char} (later : ∀ statement : Statement,
      statement.writeAll .mysql ((scan [] text).flatMap Token.pieces) = (statement.append (String.ofList text), none))
    (statement : Statement) :
    statement.writeAll .mysql ((predicateOf pending ++ token :: scan [] text).flatMap Token.pieces) =
      (statement.append (String.ofList (pending ++ (word ++ text))), none) := by
  rw [writeAll_predicateOf, List.flatMap_cons, spelled]
  have written : ∀ (statement : Statement) pieces, statement.writeAll .mysql ([.text (String.ofList word)] ++ pieces) =
      (statement.append (String.ofList word)).writeAll .mysql pieces := fun _ _ => rfl
  rw [written, later, append_append, append_append, String.ofList_append, String.ofList_append]

theorem writeAll_scan (pending text : List Char) (statement : Statement) :
    statement.writeAll .mysql ((scan pending text).flatMap Token.pieces) =
      (statement.append (String.ofList (pending ++ text)), none) := by
  fun_induction scan pending text generalizing statement with
  | case1 pending rest ih => exact writeAll_delimiter ['('] rfl ih statement
  | case2 pending rest ih => exact writeAll_delimiter [')'] rfl ih statement
  | case3 pending rest ih => exact writeAll_delimiter [' ', 'A', 'N', 'D', ' '] rfl ih statement
  | case4 pending rest ih => exact writeAll_delimiter [' ', 'O', 'R', ' '] rfl ih statement
  | case5 pending c rest _ _ _ _ ih => rw [ih, List.append_assoc, List.singleton_append]
  | case6 pending =>
    have written := writeAll_predicateOf pending [] statement
    rw [List.append_nil] at written
    rw [written, List.append_nil]
    rfl

def Lexer.splitting : Lexer where
  words text := scan [] text.toList
  spelled text statement := by
    rw [writeAll_scan, List.nil_append, String.ofList_toList]
    rfl

example : (Expr.raw "a = 1 OR b = 2").words .splitting =
    [.predicate (.raw "a = 1"), .connective .or, .predicate (.raw "b = 2")] := rfl

end SqlComposer.Sql
