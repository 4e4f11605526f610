import SqlComposer.Compose.Encoder
import SqlComposer.Compose.Layout

namespace SqlComposer.Compose

open Sql

abbrev Renderer := Node Pieces → Pieces

structure Registry where
  renderer? : ExprKind → Option Renderer
  encoder? : ValueKind → Option Encoder

namespace Registry

def empty : Registry := ⟨fun _ => none, fun _ => none⟩

def mysql : Registry where
  renderer? kind := if kind = .argument then none else some nodePieces
  encoder? kind := some (mysqlEncoder kind)

def withRenderer (registry : Registry) (kind : ExprKind) (renderer : Renderer) : Registry :=
  { registry with renderer? := fun other => if other = kind then some renderer else registry.renderer? other }

def withEncoder (registry : Registry) (kind : ValueKind) (encoder : Encoder) : Registry :=
  { registry with encoder? := fun other => if other = kind then some encoder else registry.encoder? other }

def render (registry : Registry) (node : Node Pieces) : Pieces :=
  match registry.renderer? node.kind, node with
  | some renderer, node => renderer node
  | none, .argument bound => [.argument bound]
  | none, node => [.fault (.unregistered node.kind)]

def pieces (registry : Registry) (expr : Expr) : Pieces := expr.fold registry.render

def encode (registry : Registry) (v : SqlValue) : Except BuildError SqlValue :=
  match registry.encoder? v.kind with
  | some encoder => encoder v
  | none => .error (.noEncoder v.kind)

def resolve (registry : Registry) (bound : Argument) : Except BuildError SqlValue :=
  match bound.outcome with
  | .ok v => registry.encode v
  | .error reason => .error (.noValue reason)

@[simp] theorem render_mysql (node : Node Pieces) : mysql.render node = nodePieces node := by
  cases node <;> rfl

theorem pieces_mysql (expr : Expr) : mysql.pieces expr = expr.fold nodePieces := by
  simp only [pieces, funext render_mysql]

end Registry

end SqlComposer.Compose
