import SqlComposer.Proofs.Grammar.Tree

namespace SqlComposer.Grammar

open Sql

inductive Token
  | operand (tree : Tree)
  | opening
  | closing
  | connective (connective : Connective)
  | relation (relation : Relation)
  | step (step : Step)
  | not
  | is
  | null

def Relation.tokens : Relation → List Token
  | .notLike => [.not, .relation .like]
  | relation => [.relation relation]

def nullTokens (negated : Bool) : List Token := if negated then [.is, .not, .null] else [.is, .null]

mutual

def Tree.tokens : Tree → List Token
  | .compared relation left right => left.tokens ++ (relation.tokens ++ right.tokens)
  | .nullTest negated left => left.tokens ++ nullTokens negated
  | .joined connective parts => .opening :: tokensList connective parts ++ [.closing]
  | .sum step left right => left.tokens ++ .step step :: right.tokens
  | operand => [.operand operand]

def Tree.tokensList (connective : Connective) : List Tree → List Token
  | [] => []
  | [part] => part.tokens
  | part :: parts => part.tokens ++ .connective connective :: tokensList connective parts

end

def gathered (connective : Connective) : List Tree → Tree
  | [tree] => tree
  | parts => .joined connective parts

structure Level where
  disjuncts : List Tree := []
  conjuncts : List Tree := []
  compared : Option (Tree × Relation) := none
  summed : Option (Tree × Step) := none

namespace Level

def sum (level : Level) (operand : Tree) : Tree :=
  match level.summed with
  | none => operand
  | some (left, step) => .sum step left operand

def comparison (level : Level) (operand : Tree) : Tree :=
  match level.compared with
  | none => level.sum operand
  | some (left, relation) => .compared relation left (level.sum operand)

def cleared (level : Level) : Level := ⟨level.disjuncts, level.conjuncts, none, none⟩

def extend (level : Level) : Connective → Tree → Level
  | .and, tree => ⟨level.disjuncts, level.conjuncts ++ [tree], none, none⟩
  | .or, tree => ⟨level.disjuncts ++ [gathered .and (level.conjuncts ++ [tree])], [], none, none⟩

def closed (level : Level) (tree : Tree) : Tree :=
  gathered .or (level.disjuncts ++ [gathered .and (level.conjuncts ++ [tree])])

end Level

inductive Reader
  | expects (level : Level) (outer : List Level)
  | follows (operand : Tree) (level : Level) (outer : List Level)
  | complete (tree : Tree) (level : Level) (outer : List Level)
  | negates (tree : Tree) (level : Level) (outer : List Level)
  | tests (negated : Bool) (tree : Tree) (level : Level) (outer : List Level)

namespace Reader

def comparison? : Reader → Option (Tree × Level × List Level)
  | .follows operand level outer => some (level.comparison operand, level.cleared, outer)
  | .complete tree level outer => some (tree, level.cleared, outer)
  | _ => none

def goOn? (tree : Tree) (level : Level) : (outer : List Level) → Token → Option Reader
  | outer, .relation relation => some (.expects { level with compared := some (tree, relation) } outer)
  | outer, .not => some (.negates tree level outer)
  | outer, .is => some (.tests false tree level outer)
  | outer, .connective connective => some (.expects (level.extend connective tree) outer)
  | below :: outer, .closing => some (.follows (level.closed tree) below outer)
  | _, _ => none

def advance? : Reader → Token → Option Reader
  | .expects level outer, .operand tree => some (.follows tree level outer)
  | .expects level outer, .opening => some (.expects {} (level :: outer))
  | .follows operand level outer, .step step =>
    some (.expects { level with summed := some (level.sum operand, step) } outer)
  | .negates tree level outer, .relation .like =>
    some (.expects { level with compared := some (tree, .notLike) } outer)
  | .tests false tree level outer, .not => some (.tests true tree level outer)
  | .tests negated tree level outer, .null => some (.complete (.nullTest negated tree) level outer)
  | reader, token => reader.comparison?.bind fun (tree, level, outer) => goOn? tree level outer token

def tree? (reader : Reader) : Option Tree :=
  reader.comparison?.bind fun
    | (tree, level, []) => some (level.closed tree)
    | _ => none

end Reader

def read (tokens : List Token) : Option Tree := (tokens.foldlM Reader.advance? (.expects {} [])).bind Reader.tree?

def readAssignment : List Token → Option ((String × String) × Tree)
  | .operand (.column table name) :: .relation .equal :: tokens => (read tokens).map ((table, name), ·)
  | _ => none

namespace Level

def behind (parts : List Tree) : Connective → Level
  | .and => { conjuncts := parts }
  | .or => { disjuncts := parts }

theorem extend_behind (parts : List Tree) (connective : Connective) (part : Tree) :
    (behind parts connective).extend connective part = behind (parts ++ [part]) connective := by
  cases connective <;> rfl

theorem closed_behind (parts : List Tree) (connective : Connective) (part : Tree) :
    (behind parts connective).closed part = gathered connective (parts ++ [part]) := by
  cases connective <;> rfl

theorem comparison_behind (parts : List Tree) (connective : Connective) (operand : Tree) :
    (behind parts connective).comparison operand = operand := by
  cases connective <;> rfl

theorem cleared_behind (parts : List Tree) (connective : Connective) :
    (behind parts connective).cleared = behind parts connective := by
  cases connective <;> rfl

end Level

namespace Reader

variable {reader : Reader} {tree : Tree} {level : Level} {outer : List Level}

theorem advance?_eq_goOn? (complete : reader.comparison? = some (tree, level, outer)) {token : Token}
    (noStep : ∀ step, token ≠ .step step) : reader.advance? token = goOn? tree level outer token := by
  cases reader with
  | follows operand before inner =>
    cases complete
    cases token with
    | step step => exact absurd rfl (noStep step)
    | _ => rfl
  | complete whole before inner =>
    cases complete
    rfl
  | expects | negates | tests => cases complete

theorem foldlM_relation (complete : reader.comparison? = some (tree, level, outer)) (relation : Relation) :
    relation.tokens.foldlM advance? reader =
      some (.expects { level with compared := some (tree, relation) } outer) := by
  have sign (relation : Relation) :
      reader.advance? (.relation relation) = some (.expects { level with compared := some (tree, relation) } outer) :=
    advance?_eq_goOn? complete (by simp)
  have negation : reader.advance? .not = some (.negates tree level outer) := advance?_eq_goOn? complete (by simp)
  cases relation with
  | notLike =>
    rw [Relation.tokens, List.foldlM_cons, negation]
    rfl
  | _ =>
    rw [Relation.tokens, List.foldlM_cons, sign]
    · rfl
    · simp

theorem foldlM_null (complete : reader.comparison? = some (tree, level, outer)) (negated : Bool) :
    (nullTokens negated).foldlM advance? reader = some (.complete (.nullTest negated tree) level outer) := by
  have test : reader.advance? .is = some (.tests false tree level outer) := advance?_eq_goOn? complete (by simp)
  cases negated with
  | false =>
    show [Token.is, .null].foldlM advance? reader = _
    rw [List.foldlM_cons, test]
    rfl
  | true =>
    show [Token.is, .not, .null].foldlM advance? reader = _
    rw [List.foldlM_cons, test]
    rfl

def TakesIn (tree : Tree) : Prop :=
  ∀ level outer, ∃ reader, tree.tokens.foldlM advance? (.expects level outer) = some reader ∧
    reader.comparison? =
      some (tree.chain.suffixes.foldl Suffix.apply (level.comparison tree.chain.head), level.cleared, outer)

theorem exists_reader_parts (connective : Connective) (done : List Tree) (first : Tree) (rest : List Tree)
    (parts : ∀ part ∈ first :: rest, TakesIn part) (outer : List Level) :
    ∃ reader before last,
      (Tree.tokensList connective (first :: rest)).foldlM advance? (.expects (.behind done connective) outer) =
        some reader ∧
      reader.comparison? = some (last, .behind before connective, outer) ∧
      before ++ [last] = done ++ (first :: rest).map Tree.regrouped := by
  -- The parts behind the connective are joined to those that are done already.
  induction rest generalizing done first with
  | nil =>
    obtain ⟨reader, run, complete⟩ := parts first List.mem_cons_self (.behind done connective) outer
    rw [Level.comparison_behind, Level.cleared_behind] at complete
    exact ⟨reader, done, first.regrouped, run, complete, rfl⟩
  | cons second rest ih =>
    obtain ⟨reader, run, complete⟩ := parts first List.mem_cons_self (.behind done connective) outer
    rw [Level.comparison_behind, Level.cleared_behind] at complete
    obtain ⟨final, before, last, runRest, completeRest, same⟩ :=
      ih (done ++ [first.regrouped]) second fun part member => parts part (List.mem_cons_of_mem _ member)
    refine ⟨final, before, last, ?_, completeRest, ?_⟩
    · have link : reader.advance? (.connective connective) =
          some (.expects (.behind (done ++ [first.regrouped]) connective) outer) := by
        rw [advance?_eq_goOn? complete (by simp), goOn?, ← Level.extend_behind]
        rfl
      rw [Tree.tokensList, List.foldlM_append, run, Option.bind_eq_bind, Option.bind_some, List.foldlM_cons, link]
      · exact runRest
      · simp
    · rw [same, List.map_cons, List.append_assoc]
      rfl

theorem takesIn_of_isOperand (operand : tree.IsOperand) : TakesIn tree := by
  induction operand with
  | column table name => exact fun level outer => ⟨_, rfl, rfl⟩
  | value v => exact fun level outer => ⟨_, rfl, rfl⟩
  | @compared relation left right _ _ ihLeft ihRight =>
    intro level outer
    -- The whole row so far becomes the left side for the first operand of the right row.
    obtain ⟨reader, run, complete⟩ := ihLeft level outer
    obtain ⟨final, runRight, completeRight⟩ := ihRight { level.cleared with compared := some (_, relation) } outer
    refine ⟨final, ?_, ?_⟩
    · rw [Tree.tokens, List.foldlM_append, run, Option.bind_eq_bind, Option.bind_some, List.foldlM_append,
        foldlM_relation complete, Option.bind_eq_bind, Option.bind_some]
      exact runRight
    · rw [completeRight, Tree.chain, Chain.compared, List.foldl_append]
      rfl
  | @nullTest negated left _ ih =>
    intro level outer
    obtain ⟨reader, run, complete⟩ := ih level outer
    have rest : (Tree.nullTest negated left).tokens.foldlM advance? (.expects level outer) =
        (nullTokens negated).foldlM advance? reader := by
      rw [Tree.tokens, List.foldlM_append, run]
      rfl
    refine ⟨_, rest.trans (foldlM_null complete negated), ?_⟩
    rw [Tree.chain, Chain.nullTest, List.foldl_append]
    rfl
  | @joined connective first second rest _ ih =>
    intro level outer
    obtain ⟨reader, before, last, run, complete, same⟩ :=
      exists_reader_parts connective [] first (second :: rest) ih (level :: outer)
    refine ⟨.follows (.joined connective ((first :: second :: rest).map Tree.regrouped)) level outer, ?_, ?_⟩
    · have start : (expects level outer).advance? .opening =
          some (.expects (.behind [] connective) (level :: outer)) := by
        cases connective <;> rfl
      have close : reader.advance? .closing =
          some (.follows (.joined connective ((first :: second :: rest).map Tree.regrouped)) level outer) := by
        rw [advance?_eq_goOn? complete (by simp), goOn?, Level.closed_behind, same]
        rfl
      rw [Tree.tokens, List.cons_append, List.foldlM_cons, start, Option.bind_eq_bind, Option.bind_some,
        List.foldlM_append, run, Option.bind_eq_bind, Option.bind_some, List.foldlM_cons, close]
      rfl
    · rw [Tree.chain, Tree.regroupedList_eq_map]
      rfl

end Reader

theorem read_tokens {tree : Tree} (operand : tree.IsOperand) : read tree.tokens = some tree.regrouped := by
  obtain ⟨reader, run, complete⟩ := Reader.takesIn_of_isOperand operand {} []
  rw [read, run, Option.bind_some, Reader.tree?, complete]
  rfl

theorem readAssignment_tokens {amount : Tree} (operand : amount.IsOperand) (table name : String) (step : Step) :
    readAssignment (.operand (.column table name) :: .relation .equal :: .operand (.column table name) ::
        .step step :: amount.tokens) =
      some ((table, name), .added step (.column table name) amount) := by
  obtain ⟨reader, run, complete⟩ :=
    Reader.takesIn_of_isOperand operand { summed := some (.column table name, step) } []
  have whole : (Token.operand (.column table name) :: .step step :: amount.tokens).foldlM Reader.advance?
      (.expects {} []) = some reader := run
  rw [readAssignment, read, whole, Option.bind_some, Reader.tree?, complete]
  rfl

end SqlComposer.Grammar
