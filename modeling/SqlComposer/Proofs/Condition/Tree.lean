import SqlComposer.Proofs.Condition.Reading

namespace SqlComposer.Sql

abbrev Truth := Option Bool

namespace Truth

def all (truths : List Truth) : Truth :=
  if some false ∈ truths then some false else if none ∈ truths then none else some true

def any (truths : List Truth) : Truth :=
  if some true ∈ truths then some true else if none ∈ truths then none else some false

@[simp] theorem all_singleton (truth : Truth) : all [truth] = truth := by
  rcases truth with _ | _ | _ <;> rfl

@[simp] theorem any_singleton (truth : Truth) : any [truth] = truth := by
  rcases truth with _ | _ | _ <;> rfl

theorem all_eq_true_iff {truths : List Truth} : all truths = some true ↔ ∀ truth ∈ truths, truth = some true := by
  unfold all
  constructor
  · intro holds truth member
    cases truth with
    | none => simp [member] at holds
    | some b => cases b with
      | false => simp [member] at holds
      | true => rfl
  · intro holds
    have noFalse : some false ∉ truths := fun member => by simpa using holds _ member
    have noUnknown : none ∉ truths := fun member => by simpa using holds _ member
    simp [noFalse, noUnknown]

theorem any_eq_true_iff {truths : List Truth} : any truths = some true ↔ some true ∈ truths := by
  unfold any
  split_ifs with isTrue isUnknown <;> simp [isTrue]

end Truth

def Connective.combine : Connective → List Truth → Truth
  | .and => Truth.all
  | .or => Truth.any

@[simp] theorem Connective.combine_singleton (connective : Connective) (truth : Truth) :
    connective.combine [truth] = truth := by
  cases connective <;> simp [combine]

section

variable (meaning : Expr → Truth)

mutual

def Formula.truth : Formula → Truth
  | .predicate expr => meaning expr
  | .all parts => Truth.all (truthList parts)
  | .any parts => Truth.any (truthList parts)

def Formula.truthList : List Formula → List Truth
  | [] => []
  | part :: parts => truth part :: truthList parts

end

@[simp] theorem Formula.truthList_eq_map (parts : List Formula) :
    Formula.truthList meaning parts = parts.map (Formula.truth meaning) := by
  induction parts with
  | nil => rfl
  | cons part parts ih => simp [truthList, ih]

end

def Expr.isPredicate (expr : Expr) : Bool :=
  match expr.kind with
  | .comparison | .like | .nullTest | .existence | .jsonCall => true
  | .call => !expr.isZero
  | _ => false

theorem isZero_of_isPredicate {expr : Expr} (shape : expr.isPredicate = true) : expr.isZero = false := by
  obtain ⟨node⟩ := expr
  cases node with
  | call name arguments => exact Bool.not_eq_true' _ ▸ shape
  | _ => first | rfl | contradiction

inductive Condition
  | absent
  | zero (expr : Expr) (shape : expr.isZero = true)
  | predicate (expr : Expr) (shape : expr.isPredicate = true)
  | joined (connective : Connective) (operands : List Condition)

namespace Condition

mutual

def operand : Condition → Option Expr
  | .absent => none
  | .zero expr _ => some expr
  | .predicate expr _ => some expr
  | .joined connective operands => some (.ofCondition (connective.connect (operandList operands)))

def operandList : List Condition → List (Option Expr)
  | [] => []
  | condition :: conditions => operand condition :: operandList conditions

end

mutual

/-- What a tree is worth after absent operands, and nodes without operands, are taken out. -/
def truth? (meaning : Expr → Truth) : Condition → Option Truth
  | .absent => none
  | .zero .. => none
  | .predicate expr _ => some (meaning expr)
  | .joined connective operands => match truths meaning operands with
    | [] => none
    | truths => some (connective.combine truths)

def truths (meaning : Expr → Truth) : List Condition → List Truth
  | [] => []
  | condition :: conditions => (truth? meaning condition).toList ++ truths meaning conditions

end

@[simp] theorem operandList_eq_map (conditions : List Condition) :
    operandList conditions = conditions.map operand := by
  induction conditions with
  | nil => rfl
  | cons condition conditions ih => simp [operandList, ih]

@[simp] theorem truths_eq_filterMap (meaning : Expr → Truth) (conditions : List Condition) :
    truths meaning conditions = conditions.filterMap (truth? meaning) := by
  induction conditions with
  | nil => rfl
  | cons condition conditions ih => cases h : truth? meaning condition <;> simp [truths, ih, h]

end Condition

def ReadsAs (expr : Expr) (formula : Formula) : Prop :=
  ∀ link level outer, expr.tokens.foldlM Reader.advance? (.expects link level outer) =
    some (.follows (level.extend link formula) outer)

theorem readsAs_predicate {expr : Expr} (shape : expr.isPredicate = true) : ReadsAs expr (.predicate expr) := by
  intro link level outer
  have tokens : expr.tokens = [.predicate expr] := by
    obtain ⟨node⟩ := expr
    cases node <;> first | rfl | contradiction
  rw [tokens]
  rfl

theorem read_eq {expr : Expr} {formula : Formula} (reads : ReadsAs expr formula) :
    read expr.tokens = some (Level.formula ⟨[], [formula]⟩) := by
  rw [read, Reader.start, reads]
  rfl

theorem readsAs_rest (connective : Connective) {exprs : List Expr} {formulas : List Formula}
    (reads : List.Forall₂ ReadsAs exprs formulas) (level : Level) (outer : List (Connective × Level)) :
    (exprs.flatMap fun expr => .connective connective :: expr.tokens).foldlM Reader.advance?
        (.follows level outer) =
      some (.follows (level.extendAll connective formulas) outer) := by
  induction reads generalizing level with
  | nil => rfl
  | cons head _ ih =>
    simp only [List.flatMap_cons, List.cons_append, List.foldlM_cons, Reader.advance?, List.foldlM_append,
      Option.bind_eq_bind, Option.bind_some]
    rw [head, Option.bind_some, ih, Level.extendAll]

theorem tokens_group (connective : Connective) (first : Expr) (rest : List Expr) :
    (Expr.group (.raw "(" :: first ::
        rest.flatMap (fun next => [.raw connective.text, next]) ++ [.raw ")"])).tokens =
      .opening :: (first.tokens ++ (rest.flatMap fun next => .connective connective :: next.tokens) ++
        [.closing]) := by
  have word : Token.ofRaw connective.text = .connective connective := by cases connective <;> rfl
  simp [Expr.group, Expr.raw, Expr.tokens, Expr.tokensList, List.flatMap_assoc, word]
  exact ⟨rfl, rfl⟩

theorem readsAs_group (connective : Connective) {first : Expr} {rest : List Expr} {head : Formula}
    {formulas : List Formula} (readsFirst : ReadsAs first head)
    (readsRest : List.Forall₂ ReadsAs rest formulas) :
    ReadsAs (.group (.raw "(" :: first ::
        rest.flatMap (fun next => [.raw connective.text, next]) ++ [.raw ")"]))
      (Level.extendAll connective ⟨[], [head]⟩ formulas).formula := by
  intro link level outer
  simp only [tokens_group, List.foldlM_cons, List.foldlM_append, Reader.advance?, Option.bind_eq_bind,
    Option.bind_some]
  rw [readsFirst, Option.bind_some, readsAs_rest connective readsRest]
  rfl

theorem Level.extendAll_and (level : Level) (formulas : List Formula) :
    level.extendAll .and formulas = ⟨level.disjuncts, level.conjuncts ++ formulas⟩ := by
  induction formulas generalizing level with
  | nil => simp [extendAll]
  | cons formula formulas ih => simp [extendAll, extend, ih]

theorem Level.truth_extendAll_or (meaning : Expr → Truth) (level : Level) (formulas : List Formula) :
    (level.extendAll .or formulas).formula.truth meaning =
      Truth.any (level.disjuncts.map (Formula.truth meaning) ++
        Truth.all (level.conjuncts.map (Formula.truth meaning)) :: formulas.map (Formula.truth meaning)) := by
  induction formulas generalizing level with
  | nil => simp [extendAll, formula, Formula.truth]
  | cons formula formulas ih => simp [extendAll, extend, ih, Formula.truth]

theorem Level.truth_extendAll (meaning : Expr → Truth) (connective : Connective) (first : Formula)
    (rest : List Formula) :
    (Level.extendAll connective ⟨[], [first]⟩ rest).formula.truth meaning =
      connective.combine ((first :: rest).map (Formula.truth meaning)) := by
  cases connective with
  | and => simp [extendAll_and, Level.formula, Formula.truth, Connective.combine]
  | or => simp [truth_extendAll_or, Connective.combine]

def Condition.IsMeant (condition : Condition) : Option Expr → Prop
  | none => ∀ meaning, condition.truth? meaning = none
  | some expr => ∃ formula, ReadsAs expr formula ∧
    ∀ meaning, condition.truth? meaning = some (formula.truth meaning)

theorem filterMap_operand {conditions : List Condition}
    (meant : ∀ condition ∈ conditions, condition.IsMeant (present? condition.operand)) :
    ∃ formulas, List.Forall₂ ReadsAs ((conditions.map Condition.operand).filterMap present?) formulas ∧
      ∀ meaning, conditions.filterMap (Condition.truth? meaning) = formulas.map (Formula.truth meaning) := by
  induction conditions with
  | nil => exact ⟨[], by simp, by simp⟩
  | cons condition conditions ih =>
    obtain ⟨formulas, reads, worth⟩ := ih fun other member => meant other (List.mem_cons_of_mem _ member)
    have head := meant condition List.mem_cons_self
    cases shown : present? condition.operand with
    | none =>
      rw [shown] at head
      exact ⟨formulas, by simpa [shown] using reads, by simpa [head _] using worth⟩
    | some expr =>
      rw [shown] at head
      obtain ⟨formula, readsHead, worthHead⟩ := head
      refine ⟨formula :: formulas, ?_, by simpa [worthHead] using worth⟩
      rw [List.map_cons, List.filterMap_cons_some shown]
      exact .cons readsHead reads

theorem isMeant_joined (connective : Connective) {conditions : List Condition}
    (meant : ∀ condition ∈ conditions, condition.IsMeant (present? condition.operand)) :
    (Condition.joined connective conditions).IsMeant (connective.connect (conditions.map Condition.operand)) := by
  obtain ⟨formulas, reads, worth⟩ := filterMap_operand meant
  unfold Connective.connect
  generalize (conditions.map Condition.operand).filterMap present? = exprs at reads
  cases reads with
  | nil =>
    intro meaning
    simp [Condition.truth?, worth]
  | @cons first head rest formulas readsFirst readsRest => cases readsRest with
    | nil => exact ⟨head, readsFirst, fun meaning => by simp [Condition.truth?, worth]⟩
    | @cons second _ rest _ readsSecond readsRest =>
      refine ⟨_, readsAs_group connective readsFirst (.cons readsSecond readsRest), fun meaning => ?_⟩
      rw [Level.truth_extendAll]
      simp [Condition.truth?, worth]

theorem present?_ofCondition {condition : Option Expr} (solid : ∀ expr, condition = some expr → expr.isZero = false) :
    present? (some (.ofCondition condition)) = condition := by
  cases condition with
  | none => rfl
  | some expr => exact present?_eq_some_iff.mpr ⟨rfl, solid expr rfl⟩

theorem isZero_of_connect {connective : Connective} {operands : List (Option Expr)} {expr : Expr}
    (shown : connective.connect operands = some expr) : expr.isZero = false := by
  unfold Connective.connect at shown
  have solid : ∀ other ∈ operands.filterMap present?, other.isZero = false := by
    intro other member
    obtain ⟨operand, _, given⟩ := List.mem_filterMap.mp member
    exact (present?_eq_some_iff.mp given).2
  generalize operands.filterMap present? = exprs at shown solid
  match exprs with
  | [] => simp [Connective.join?] at shown
  | [operand] =>
    obtain rfl : operand = expr := by simpa [Connective.join?] using shown
    exact solid operand List.mem_cons_self
  | first :: second :: rest =>
    obtain rfl := Option.some.inj shown
    rfl

mutual

theorem isMeant_operand : ∀ condition : Condition, condition.IsMeant (present? condition.operand)
  | .absent => fun _ => rfl
  | .zero expr shape => by
    have hidden : present? (some expr) = none := by simp [present?, shape]
    rw [Condition.operand, hidden]
    exact fun _ => rfl
  | .predicate expr shape => by
    have solid : present? (Condition.predicate expr shape).operand = some expr :=
      present?_eq_some_iff.mpr ⟨rfl, isZero_of_isPredicate shape⟩
    rw [solid]
    exact ⟨_, readsAs_predicate shape, fun meaning => rfl⟩
  | .joined connective conditions => by
    rw [Condition.operand, present?_ofCondition fun expr => isZero_of_connect, Condition.operandList_eq_map]
    exact isMeant_joined connective (isMeant_operands conditions)

theorem isMeant_operands : ∀ conditions : List Condition,
    ∀ condition ∈ conditions, condition.IsMeant (present? condition.operand)
  | [] => by simp
  | condition :: conditions => by
    simpa using ⟨isMeant_operand condition, isMeant_operands conditions⟩

end

theorem present?_connect (connective : Connective) (operands : List (Option Expr)) :
    present? (connective.connect operands) = connective.connect operands := by
  cases shown : connective.connect operands with
  | none => rfl
  | some expr => exact present?_eq_some_iff.mpr ⟨rfl, isZero_of_connect shown⟩

theorem connect_connect_none (connective : Connective) (operands : List (Option Expr)) :
    connective.connect [connective.connect operands, none] = connective.connect operands := by
  have solid := present?_connect connective operands
  cases shown : connective.connect operands with
  | none => rfl
  | some expr =>
    rw [shown] at solid
    rw [Connective.connect, List.filterMap_cons_some solid]
    rfl

theorem present?_operand_joined (connective : Connective) (conditions : List Condition) :
    present? (Condition.joined connective conditions).operand =
      connective.connect (conditions.map Condition.operand) := by
  rw [Condition.operand, present?_ofCondition fun expr => isZero_of_connect, Condition.operandList_eq_map]

theorem connect_congr (connective : Connective) {operands others : List (Option Expr)}
    (same : operands.map present? = others.map present?) :
    connective.connect operands = connective.connect others := by
  have left := List.filterMap_map (f := present?) (g := id) (l := operands)
  have right := List.filterMap_map (f := present?) (g := id) (l := others)
  simp only [Function.id_comp] at left right
  rw [Connective.connect, Connective.connect, ← left, ← right, same]

/-- What is asked of a row by the condition of a clause: without one nothing, else that it is read and true. -/
def passes (meaning : Expr → Truth) : Option Expr → Bool
  | none => true
  | some expr => ((read expr.tokens).map (Formula.truth meaning)) == some (some true)

def Condition.holds (meaning : Expr → Truth) (condition : Condition) : Bool :=
  (condition.truth? meaning).all (· == some true)

theorem Condition.holds_joined_and (meaning : Expr → Truth) (conditions : List Condition) :
    (joined .and conditions).holds meaning = conditions.all (holds meaning) := by
  have worth : (joined .and conditions).holds meaning = true ↔
      ∀ truth ∈ conditions.filterMap (truth? meaning), truth = some true := by
    simp only [holds, truth?, truths_eq_filterMap, Connective.combine]
    cases conditions.filterMap (truth? meaning) with
    | nil => simp
    | cons first rest => simp only [Option.all_some, beq_iff_eq, Truth.all_eq_true_iff]
  rw [Bool.eq_iff_iff, worth]
  simp only [List.mem_filterMap, List.all_eq_true, holds, Option.all_eq_true, beq_iff_eq]
  constructor
  · intro all condition member truth given
    exact all truth ⟨condition, member, given⟩
  · rintro each truth ⟨condition, member, given⟩
    exact each condition member truth given

theorem Condition.truth?_joined {meaning : Expr → Truth} {conditions : List Condition} (connective : Connective)
    (counts : conditions.filterMap (truth? meaning) ≠ []) :
    (joined connective conditions).truth? meaning =
      some (connective.combine (conditions.filterMap (truth? meaning))) := by
  rw [truth?, truths_eq_filterMap]
  cases shown : conditions.filterMap (truth? meaning) with
  | nil => exact absurd shown counts
  | cons first rest => rfl

theorem Condition.holds_joined_or {meaning : Expr → Truth} {conditions : List Condition}
    (counts : conditions.filterMap (truth? meaning) ≠ []) :
    (joined .or conditions).holds meaning = true ↔ some true ∈ conditions.filterMap (truth? meaning) := by
  rw [holds, truth?_joined .or counts, Option.all_some, beq_iff_eq]
  exact Truth.any_eq_true_iff

theorem passes_eq_holds {condition : Condition} {operand : Option Expr} (meant : condition.IsMeant operand)
    (meaning : Expr → Truth) : passes meaning operand = condition.holds meaning := by
  cases operand with
  | none => simp [passes, Condition.holds, meant meaning]
  | some expr =>
    obtain ⟨formula, reads, worth⟩ := meant
    rw [passes, read_eq reads, Condition.holds, worth]
    simp [Level.formula, Formula.truth]

end SqlComposer.Sql
