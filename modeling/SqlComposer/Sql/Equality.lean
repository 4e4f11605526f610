import SqlComposer.Sql.Expr

namespace SqlComposer.Sql

section Layer

variable {α β : Type} (eq : α → β → Bool)

def sameOption : Option α → Option β → Bool
  | none, none => true
  | some a, some b => eq a b
  | _, _ => false

def sameList : List α → List β → Bool
  | [], [] => true
  | a :: as, b :: bs => eq a b && sameList as bs
  | _, _ => false

def Join.sameBy (a : Join α) (b : Join β) : Bool :=
  a.kind == b.kind && a.table == b.table && a.label == b.label && sameOption eq a.condition b.condition

def Query.sameBy (a : Query α) (b : Query β) : Bool :=
  a.database == b.database && a.table == b.table && a.distinct == b.distinct &&
  sameList eq a.projections b.projections && sameList (Join.sameBy eq) a.joins b.joins &&
  sameOption eq a.condition b.condition && sameList eq a.groups b.groups && sameOption eq a.having b.having &&
  sameList eq a.sorts b.sorts && a.skip == b.skip && a.count == b.count && sameOption eq a.lock b.lock

def Node.sameBy : Node α → Node β → Bool
  | .column s m, .column t n => s == t && m == n
  | .comparison o f v, .comparison p g w => o == p && eq f g && eq v w
  | .like m f v, .like n g w => m == n && eq f g && eq v w
  | .nullTest m f, .nullTest n g => m == n && eq f g
  | .range l h, .range m i => eq l m && eq h i
  | .group as, .group bs => sameList eq as bs
  | .sort f o, .sort g p => eq f g && o == p
  | .assignment f v, .assignment g w => eq f g && eq v w
  | .adjustment f s v, .adjustment g t w => eq f g && s == t && eq v w
  | .aggregate m f, .aggregate n g => m == n && eq f g
  | .call m as, .call n bs => m == n && sameList eq as bs
  | .jsonCall m as, .jsonCall n bs => m == n && sameList eq as bs
  | .lock m, .lock n => m == n
  | .raw s, .raw t => s == t
  | .labelled f m, .labelled g n => eq f g && m == n
  | .cast v s, .cast w t => eq v w && s == t
  | .tuple as, .tuple bs => sameList eq as bs
  | .existence m q, .existence n r => m == n && q.sameBy eq r
  | .subquery q, .subquery r => q.sameBy eq r
  | .argument a, .argument b => a.same b
  | _, _ => false

end Layer

def Expr.same (expr : Expr) : Expr → Bool :=
  expr.fold fun node other => node.sameBy (fun part => part) other.node

end SqlComposer.Sql
