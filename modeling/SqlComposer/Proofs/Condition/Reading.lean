import Mathlib.Data.List.Basic
import Mathlib.Tactic.SplitIfs
import SqlComposer.Compose.Registry
import SqlComposer.Proofs.Expression.Parts
import SqlComposer.Sql.Condition

namespace SqlComposer.Sql

inductive Token
  | opening
  | closing
  | connective (connective : Connective)
  | predicate (expr : Expr)

def Token.ofRaw (text : String) : Token :=
  if text = "(" then .opening
  else if text = ")" then .closing
  else if text = Connective.and.text then .connective .and
  else if text = Connective.or.text then .connective .or
  else .predicate (.raw text)

mutual

def Expr.tokens : Expr → List Token
  | .ofNode (.group parts) => tokensList parts
  | .ofNode (.raw text) => [.ofRaw text]
  | expr => [.predicate expr]

def Expr.tokensList : List Expr → List Token
  | [] => []
  | expr :: exprs => tokens expr ++ tokensList exprs

end

@[simp] theorem Expr.tokensList_eq_flatMap (exprs : List Expr) :
    Expr.tokensList exprs = exprs.flatMap Expr.tokens := by
  induction exprs with
  | nil => rfl
  | cons expr exprs ih => simp [tokensList, ih]

def Token.pieces : Token → Compose.Pieces
  | .opening => [.text "("]
  | .closing => [.text ")"]
  | .connective word => [.text word.text]
  | .predicate expr => Compose.Registry.mysql.pieces expr

theorem Token.pieces_raw (text : String) : (Token.predicate (.raw text)).pieces = [.text text] := by
  simp [pieces, Expr.raw, Compose.Registry.pieces_mysql, Expr.fold_ofNode, Node.map, Compose.nodePieces]

theorem Token.pieces_ofRaw (text : String) : (Token.ofRaw text).pieces = [.text text] := by
  unfold ofRaw
  split_ifs with isOpening isClosing isAnd isOr
  · simp [pieces, isOpening]
  · simp [pieces, isClosing]
  · simp [pieces, isAnd]
  · simp [pieces, isOr]
  · exact pieces_raw text

theorem Expr.pieces_eq_tokens (expr : Expr) :
    Compose.Registry.mysql.pieces expr = expr.tokens.flatMap Token.pieces := by
  induction expr using Expr.induction with
  | step node ih =>
    cases node with
    | group parts =>
      have written : Compose.Registry.mysql.pieces (.ofNode (.group parts)) =
          parts.flatMap Compose.Registry.mysql.pieces := by
        rw [Compose.Registry.pieces, Expr.fold_ofNode, Compose.Registry.render_mysql]
        rfl
      rw [written, Expr.tokens, tokensList_eq_flatMap, List.flatMap_assoc]
      exact List.flatMap_congr ih
    | raw text =>
      rw [Expr.tokens, List.flatMap_singleton, Token.pieces_ofRaw]
      simp [Compose.Registry.pieces_mysql, Expr.fold_ofNode, Node.map, Compose.nodePieces]
    | _ => simp [Expr.tokens, Token.pieces]

inductive Formula
  | predicate (expr : Expr)
  | all (parts : List Formula)
  | any (parts : List Formula)

structure Level where
  disjuncts : List Formula := []
  conjuncts : List Formula := []

namespace Level

def formula (level : Level) : Formula := .any (level.disjuncts ++ [.all level.conjuncts])

def extend (level : Level) : Connective → Formula → Level
  | .and, operand => { level with conjuncts := level.conjuncts ++ [operand] }
  | .or, operand => ⟨level.disjuncts ++ [.all level.conjuncts], [operand]⟩

def extendAll (connective : Connective) : Level → List Formula → Level
  | level, [] => level
  | level, operand :: operands => extendAll connective (level.extend connective operand) operands

end Level

/-- A reader between two tokens: either it expects an operand, which the connective before it links to the level
(at the beginning of a level AND does so), or it stands behind an operand. Levels further out are kept with the
connective that links what is in parentheses to them. -/
inductive Reader
  | expects (link : Connective) (level : Level) (outer : List (Connective × Level))
  | follows (level : Level) (outer : List (Connective × Level))

namespace Reader

def start : Reader := .expects .and {} []

def advance? : Reader → Token → Option Reader
  | .expects link level outer, .opening => some (.expects .and {} ((link, level) :: outer))
  | .expects link level outer, .predicate expr => some (.follows (level.extend link (.predicate expr)) outer)
  | .follows level outer, .connective word => some (.expects word level outer)
  | .follows level ((link, below) :: outer), .closing =>
    some (.follows (below.extend link level.formula) outer)
  | _, _ => none

def result? : Reader → Option Formula
  | .follows level [] => some level.formula
  | _ => none

end Reader

def read (tokens : List Token) : Option Formula := (tokens.foldlM Reader.advance? .start).bind Reader.result?

end SqlComposer.Sql
