import SqlComposer.Compose.Piece

namespace SqlComposer.Compose

open Sql

def aggregateOpening : Aggregate → String
  | .count => "COUNT("
  | .countDistinct => "COUNT(DISTINCT "
  | .sum => "SUM("
  | .average => "AVG("
  | .maximum => "MAX("
  | .minimum => "MIN("

def lockText (lock : Lock) : String :=
  let wait := match lock.wait with
    | none => ""
    | some .noWait => " NOWAIT"
    | some .skipLocked => " SKIP LOCKED"
  match lock.mode with
  | .forUpdate => "FOR UPDATE" ++ wait
  | .forShare => "FOR SHARE" ++ wait
  | .inShareMode => "LOCK IN SHARE MODE"

/-- A limit is needed where an offset stands; the largest count serves for none. -/
def limitText (count skip : UInt64) : String :=
  (if 0 < count then " LIMIT " ++ toString count
    else if 0 < skip then " LIMIT 18446744073709551615" else "") ++
  (if 0 < skip then " OFFSET " ++ toString skip else "")

def columnPieces (table name : String) : Pieces :=
  (if table = "" then [] else [.identifier table, .text "."]) ++
  (if name = "*" then [.text "*"] else [.identifier name])

def joinPieces (database : String) (join : Join Pieces) : Pieces :=
  .text (" " ++ join.kind.text ++ " ") :: Pieces.table database join.table ++
  (if join.label = "" then [] else [.text " AS ", .identifier join.label]) ++
  Pieces.clause " ON " join.condition

def queryPieces (query : Query Pieces) : Pieces :=
  .text (if query.distinct then "SELECT DISTINCT " else "SELECT ") ::
  (if query.projections.isEmpty then [.text "*"] else Pieces.separated "," query.projections) ++
  .text " FROM " :: Pieces.table query.database query.table ++
  query.joins.flatMap (joinPieces query.database) ++
  Pieces.clause " WHERE " query.condition ++
  Pieces.listClause " GROUP BY " query.groups ++
  Pieces.clause " HAVING " query.having ++
  Pieces.listClause " ORDER BY " query.sorts ++
  [.text (limitText query.count query.skip)] ++
  Pieces.clause " " query.lock

def callPieces (name : String) (arguments : List Pieces) : Pieces :=
  .text (name ++ "(") :: Pieces.separated "," arguments ++ [.text ")"]

def nodePieces : Node Pieces → Pieces
  | .column table name => columnPieces table name
  | .comparison .memberOf field value => value ++ .text " MEMBER OF(" :: field ++ [.text ")"]
  | .comparison operator field value => field ++ .text (" " ++ operator.text ++ " ") :: value
  | .like negated field value => field ++ .text (if negated then " NOT LIKE " else " LIKE ") :: value
  | .nullTest negated field => field ++ [.text (if negated then " IS NOT NULL" else " IS NULL")]
  | .range low high => low ++ .text " AND " :: high
  | .group parts => parts.flatten
  | .sort field .ascending => field
  | .sort field .descending => field ++ [.text " DESC"]
  | .assignment field value => field ++ .text " = " :: value
  | .adjustment field .plus amount => field ++ .text " = " :: field ++ .text " + " :: amount
  | .adjustment field .minus amount => field ++ .text " = " :: field ++ .text " - " :: amount
  | .aggregate function field => .text (aggregateOpening function) :: field ++ [.text ")"]
  | .call name arguments | .jsonCall name arguments => callPieces name arguments
  | .lock mode => [.text (lockText mode)]
  | .raw text => [.text text]
  | .labelled field label => field ++ [.text " AS ", .identifier label]
  | .cast value type => .text "CAST(" :: value ++ [.text (" AS " ++ type.text ++ ")")]
  | .tuple items => .text "(" :: Pieces.separated "," items ++ [.text ")"]
  | .existence negated query =>
    .text (if negated then "NOT EXISTS (" else "EXISTS (") :: queryPieces query ++ [.text ")"]
  | .subquery query => .text "(" :: queryPieces query ++ [.text ")"]
  | .argument bound => [.argument bound]

end SqlComposer.Compose
