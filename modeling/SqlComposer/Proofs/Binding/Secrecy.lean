import SqlComposer.Proofs.Writing.Slots

namespace SqlComposer.Compose

open Sql

def Piece.shown : Piece → String
  | .text words => words
  | .identifier name => quote name
  | .argument _ => placeholder
  | .fault _ => ""

def Piece.isArgument : Piece → Bool
  | .argument _ => true
  | _ => false

def Pieces.shown : Pieces → String
  | [] => ""
  | piece :: pieces => piece.shown ++ shown pieces

theorem shown_write {statement next : Statement} {piece : Piece}
    (written : statement.write .mysql piece = .ok next) :
    next.text = statement.text ++ piece.shown ∧
      next.values.length = statement.values.length + if piece.isArgument then 1 else 0 := by
  cases piece with
  | text text | identifier name =>
    obtain rfl := Except.ok.inj written
    exact ⟨rfl, rfl⟩
  | argument bound =>
    cases resolved : Registry.mysql.resolve bound with
    | error error => simp [Statement.write, resolved, Except.map] at written
    | ok v =>
      obtain rfl : statement.bind v = next := by simpa [Statement.write, resolved, Except.map] using written
      simp [Statement.bind, Piece.shown, Piece.isArgument]
  | fault fault => contradiction

theorem shown_writeAll {statement last : Statement} {pieces : Pieces}
    (written : statement.writeAll .mysql pieces = (last, none)) :
    last.text = statement.text ++ pieces.shown ∧
      last.values.length = statement.values.length + pieces.countP Piece.isArgument := by
  induction pieces generalizing statement with
  | nil =>
    obtain rfl : statement = last := congrArg Prod.fst written
    simp [Pieces.shown]
  | cons piece pieces ih =>
    cases step : statement.write .mysql piece with
    | error error => simp [Statement.writeAll, step] at written
    | ok next =>
      obtain ⟨text, count⟩ := shown_write step
      obtain ⟨restText, restCount⟩ := ih (by simpa [Statement.writeAll, step] using written)
      rw [restText, restCount, text, count, List.countP_cons, Pieces.shown, String.append_assoc]
      exact ⟨rfl, by omega⟩

theorem shown_compose {operation text : String} {pieces : Pieces} {values : List SqlValue}
    (built : Statement.compose .mysql operation pieces = .ok (text, values)) :
    text = pieces.shown ∧ values.length = pieces.countP Piece.isArgument := by
  unfold Statement.compose at built
  cases run : Statement.writeAll .mysql { operation } pieces with
  | mk last outcome => cases outcome with
    | some error => simp [run] at built
    | none =>
      obtain ⟨rfl, rfl⟩ : last.text = text ∧ last.values = values := by simpa [run] using built
      simpa using shown_writeAll run

@[simp] theorem shown_blank (pieces : Pieces) : (pieces.subst .blank).shown = pieces.shown := by
  induction pieces with
  | nil => rfl
  | cons piece pieces ih =>
    have same : (piece.subst .blank).shown = piece.shown := by cases piece <;> rfl
    rw [Pieces.shown, ← ih, ← same]
    rfl

@[simp] theorem countP_blank (pieces : Pieces) :
    (pieces.subst .blank).countP Piece.isArgument = pieces.countP Piece.isArgument := by
  rw [Pieces.subst, List.countP_map]
  congr 1
  funext piece
  cases piece <;> rfl

theorem compose_eq_of_blank {operation operation' text text' : String} {pieces pieces' : Pieces}
    {values values' : List SqlValue} (same : pieces.subst .blank = pieces'.subst .blank)
    (built : Statement.compose .mysql operation pieces = .ok (text, values))
    (builtToo : Statement.compose .mysql operation' pieces' = .ok (text', values')) :
    text = text' ∧ values.length = values'.length := by
  obtain ⟨shown, count⟩ := shown_compose built
  obtain ⟨shownToo, countToo⟩ := shown_compose builtToo
  rw [shown, shownToo, count, countToo, ← shown_blank, ← shown_blank pieces', ← countP_blank,
    ← countP_blank pieces', same]
  exact ⟨rfl, rfl⟩

theorem text_keeps_values_secret :
    (∀ command other : Command, Substitution.blank.command command = Substitution.blank.command other →
      ∀ text text' values values', command.build .mysql = .ok (text, values) →
        other.build .mysql = .ok (text', values') → text = text' ∧ values.length = values'.length) ∧
    ∀ expr other : Expr, Substitution.blank.expr expr = Substitution.blank.expr other →
      ∀ text text' values values', buildExpr .mysql expr = .ok (text, values) →
        buildExpr .mysql other = .ok (text', values') → text = text' ∧ values.length = values'.length := by
  constructor
  · intro command other same text text' values values' built builtToo
    have pieces : (command.pieces .mysql).subst .blank = (other.pieces .mysql).subst .blank := by
      rw [subst_command, subst_command, same]
    exact compose_eq_of_blank pieces built builtToo
  · intro expr other same text text' values values' built builtToo
    have pieces : (Registry.mysql.pieces expr).subst .blank = (Registry.mysql.pieces other).subst .blank := by
      rw [subst_pieces, subst_pieces, same]
    exact compose_eq_of_blank pieces built builtToo

def payments (owner : Argument) (cursor : SqlValue) : Page where
  query :=
    { table := "payments"
      condition := some (.comparison .within (.column "account") (.subquery
        { table := "accounts", projections := [.column "id"]
          condition := some (.equal (.column "owner") (.argument owner)) }))
      sorts := [.sort (.column "due") .descending, .column "id"]
      count := 20 }
  cursor := [.value cursor, .value (.u64 7)]

theorem payments_keep_their_owner_secret :
    Substitution.blank.command (.page (payments (.value (.string "' OR '?' = `")) (.bool true))) =
      Substitution.blank.command (.page (payments (.deferred (.ok .null)) (.i64 5))) ∧
    ∃ text values values',
      (Command.page (payments (.value (.string "' OR '?' = `")) (.bool true))).build .mysql = .ok (text, values) ∧
      (Command.page (payments (.deferred (.ok .null)) (.i64 5))).build .mysql = .ok (text, values') ∧
      values.length = values'.length := by
  have same : Substitution.blank.command (.page (payments (.value (.string "' OR '?' = `")) (.bool true))) =
      Substitution.blank.command (.page (payments (.deferred (.ok .null)) (.i64 5))) := rfl
  refine ⟨same, _, _, _, rfl, rfl, ?_⟩
  exact (text_keeps_values_secret.1 _ _ same _ _ _ _ rfl rfl).2

end SqlComposer.Compose
