import SqlComposer.Proofs.Schema.ColumnNames
/-!
Bringing an existing table up to date.

Each clause of ALTER TABLE changes the list of the table's columns, or cannot be carried out. The clauses for a list
of definitions can be carried out one after the other; in the end the table has every definition, its old columns
stand in their old order, and each new column stands right behind the one defined before it.
-/

namespace SqlComposer

namespace Schema

open Sql

variable {n : Nat}

def Definition.key (definition : Definition) : String := Text.lowerAscii definition.name

theorem sameName_iff_key {definition other : Definition} :
    Text.sameName definition.name other.name = true ↔ definition.key = other.key := Text.sameName_iff

theorem unlike_map_name {table : List Definition} :
    Text.Unlike (table.map (·.name)) ↔ (table.map Definition.key).Nodup := by
  rw [Text.unlike_iff, List.map_map]
  rfl

def splice? (name : String) (columns : Definition → List Definition) : List Definition → Option (List Definition)
  | [] => none
  | column :: table =>
    if Text.sameName column.name name then some (columns column ++ table)
    else (splice? name columns table).map (column :: ·)

/-- The columns after the change. A column cannot be modified or followed that is not there, nor added twice. -/
def Change.result? (table : List Definition) : Change → Option (List Definition)
  | .modify definition => splice? definition.name (fun _ => [definition]) table
  | .add definition after =>
    if table.any (Text.sameName ·.name definition.name) then none
    else match after with
      | none => some (definition :: table)
      | some name => splice? name (fun column => [column, definition]) table

def resultAll? (table : List Definition) (changes : List Change) : Option (List Definition) :=
  changes.foldlM Change.result? table

theorem splice?_eq {column : Definition} {table : List Definition} {name : String}
    (apart : (table.map Definition.key).Nodup) (member : column ∈ table)
    (same : Text.sameName column.name name = true) (columns : Definition → List Definition) :
    ∃ before after, table = before ++ column :: after ∧
      splice? name columns table = some (before ++ columns column ++ after) := by
  induction table with
  | nil => cases member
  | cons first table ih =>
    rw [List.map_cons, List.nodup_cons] at apart
    rcases List.mem_cons.mp member with rfl | member
    · exact ⟨[], table, rfl, by rw [splice?, if_pos same]; rfl⟩
    · obtain ⟨before, after, rfl, spliced⟩ := ih apart.2 member
      have other : ¬ Text.sameName first.name name = true := by
        intro sameToo
        rw [Text.sameName_iff] at same sameToo
        exact apart.1 (List.mem_map.mpr ⟨column, member, same.trans sameToo.symm⟩)
      exact ⟨first :: before, after, rfl, by rw [splice?, if_neg other, spliced]; rfl⟩

def StandsBehind (table : List Definition) (column : Definition) : Option Definition → Prop
  | none => table.head? = some column
  | some other => [other, column] <:+: table

theorem infix_splice {before after columns : List Definition} {other column spliced : Definition}
    (neighbours : [other, column] <:+: before ++ spliced :: after) (different : other ≠ spliced)
    (led : column = spliced → ∃ more, columns = spliced :: more) :
    [other, column] <:+: before ++ columns ++ after := by
  obtain ⟨left, right, split⟩ := neighbours
  rw [List.append_assoc, List.append_eq_append_iff] at split
  rcases split with ⟨inside, rfl, shown⟩ | ⟨inside, rfl, shown⟩
  · rcases inside with _ | ⟨first, _ | ⟨second, inside⟩⟩ <;>
      simp only [List.cons_append, List.nil_append, List.cons.injEq] at shown
    · exact absurd shown.1 different
    · obtain ⟨rfl, rfl, rfl⟩ := shown
      obtain ⟨more, rfl⟩ := led rfl
      exact ⟨left, more ++ right, by simp⟩
    · obtain ⟨rfl, rfl, rfl⟩ := shown
      exact ⟨left, inside ++ columns ++ after, by simp⟩
  · rcases inside with _ | ⟨first, inside⟩ <;>
      simp only [List.cons_append, List.nil_append, List.cons.injEq] at shown
    · exact absurd shown.1.symm different
    · obtain ⟨rfl, rfl⟩ := shown
      exact ⟨before ++ columns ++ inside, right, by simp⟩

theorem StandsBehind.splice {before after columns : List Definition} {column spliced : Definition}
    {place : Option Definition} (stands : StandsBehind (before ++ spliced :: after) column place)
    (different : place ≠ some spliced) (led : column = spliced → ∃ more, columns = spliced :: more) :
    StandsBehind (before ++ columns ++ after) column place := by
  cases place with
  | some other => exact infix_splice stands (fun same => different (congrArg some same)) led
  | none => cases before with
    | cons first before => exact stands
    | nil =>
      obtain rfl : spliced = column := Option.some.inj stands
      obtain ⟨more, rfl⟩ := led rfl
      rfl

structure Reached (old done table : List Definition) : Prop where
  apart : (table.map Definition.key).Nodup
  defined : ∀ definition ∈ done, definition ∈ table
  known : ∀ column ∈ table, column ∈ old ∨ column ∈ done
  untouched : ∀ column ∈ old, column.key ∉ done.map Definition.key → column ∈ table
  order : (table.map Definition.key).filter (· ∈ old.map Definition.key) = old.map Definition.key
  placed : ∀ before definition after, done = before ++ definition :: after →
    definition.key ∉ old.map Definition.key → StandsBehind table definition before.getLast?
  fresh : old = [] → table = done

theorem reached_start {old : List Definition} (apart : (old.map Definition.key).Nodup) : Reached old [] old where
  apart := apart
  defined := by simp
  known _ member := .inl member
  untouched _ member _ := member
  order := List.filter_eq_self.mpr fun _ member => by simpa using member
  placed := by simp
  fresh none := none

theorem any_sameName_iff {table : List Definition} {definition : Definition} :
    (table.any fun column => Text.sameName column.name definition.name) = true ↔
      definition.key ∈ table.map Definition.key := by
  simp only [List.any_eq_true, List.mem_map, sameName_iff_key]

section Step

variable {old done table : List Definition} {definition : Definition}

theorem placed_concat {next : List Definition}
    (kept : ∀ before other after, done = before ++ other :: after → other.key ∉ old.map Definition.key →
      StandsBehind next other before.getLast?)
    (last : definition.key ∉ old.map Definition.key → StandsBehind next definition done.getLast?) :
    ∀ before other after, done ++ [definition] = before ++ other :: after → other.key ∉ old.map Definition.key →
      StandsBehind next other before.getLast? := by
  intro before other after split new
  obtain rfl | ⟨rest, end_, rfl⟩ := after.eq_nil_or_concat
  · obtain ⟨rfl, same⟩ := List.append_inj' split rfl
    obtain rfl := (List.cons.inj same).1
    exact last new
  · rw [List.concat_eq_append, ← List.cons_append, ← List.append_assoc] at split
    exact kept before other rest (List.append_inj' split rfl).1 new

variable (reached : Reached old done table) (apart : ((done ++ [definition]).map Definition.key).Nodup)

include apart in
theorem key_ne_of_mem_done {other : Definition} (member : other ∈ done) : other.key ≠ definition.key := by
  rw [List.map_append, List.nodup_append] at apart
  exact apart.2.2 other.key (List.mem_map_of_mem member) definition.key (by simp)

include reached apart

theorem reached_modify (there : definition.key ∈ old.map Definition.key) :
    ∃ next, Change.result? table (.modify definition) = some next ∧ Reached old (done ++ [definition]) next := by
  have held := there
  rw [← reached.order] at held
  obtain ⟨column, member, same⟩ := List.mem_map.mp (List.mem_filter.mp held).1
  have isNot : ∀ {other : Definition}, other.key ≠ definition.key → other ≠ column :=
    fun different equal => different (equal ▸ same)
  obtain ⟨before, after, rfl, spliced⟩ :=
    splice?_eq reached.apart member (sameName_iff_key.mpr same) fun _ => [definition]
  have keys : (before ++ [definition] ++ after).map Definition.key =
      (before ++ column :: after).map Definition.key := by simp [same]
  have stays : ∀ {other : Definition}, other ∈ before ++ column :: after → other.key ≠ definition.key →
      other ∈ before ++ [definition] ++ after := by
    intro other otherMember different
    simp only [List.mem_append, List.mem_cons, isNot different, false_or] at otherMember ⊢
    tauto
  refine ⟨_, spliced, keys ▸ reached.apart, ?_, ?_, ?_, keys ▸ reached.order, ?_, ?_⟩
  · intro other otherMember
    rcases List.mem_append.mp otherMember with earlier | last
    · exact stays (reached.defined other earlier) (key_ne_of_mem_done apart earlier)
    · obtain rfl := List.mem_singleton.mp last
      simp
  · intro other otherMember
    simp only [List.mem_append, List.mem_singleton] at otherMember
    rcases otherMember with (ahead | rfl) | behind
    · exact (reached.known other (List.mem_append_left _ ahead)).imp_right (List.mem_append_left _)
    · exact .inr (by simp)
    · exact (reached.known other (List.mem_append_right _ (List.mem_cons_of_mem _ behind))).imp_right
        (List.mem_append_left _)
  · intro other otherMember unnamed
    simp only [List.map_append, List.mem_append, not_or] at unnamed
    exact stays (reached.untouched other otherMember unnamed.1) (by simpa using unnamed.2)
  · refine placed_concat ?_ (absurd there)
    intro front other rest split new
    have earlier : other ∈ done := by simp [split]
    apply (reached.placed front other rest split new).splice
    · intro behind
      have inFront : column ∈ done := by
        rw [split]
        exact List.mem_append_left _ (List.mem_of_getLast? behind)
      exact key_ne_of_mem_done apart inFront same
    · exact fun equal => absurd equal (isNot (key_ne_of_mem_done apart earlier))
  · rintro rfl
    exact absurd there List.not_mem_nil

omit apart in
theorem exists_added (absent : definition.key ∉ table.map Definition.key) :
    ∃ before after, table = before ++ after ∧
      Change.result? table (.add definition (done.getLast?.map (·.name))) = some (before ++ definition :: after) ∧
      StandsBehind (before ++ definition :: after) definition done.getLast? ∧
      (∀ other place, StandsBehind table other place → place ≠ done.getLast? →
        StandsBehind (before ++ definition :: after) other place) ∧
      (table = done → after = []) := by
  have free : ¬ (table.any fun column => Text.sameName column.name definition.name) = true :=
    mt any_sameName_iff.mp absent
  obtain rfl | ⟨init, last, rfl⟩ := done.eq_nil_or_concat
  · refine ⟨[], table, rfl, by simp [Change.result?, free], rfl, ?_, id⟩
    intro other place stands different
    cases place with
    | none => exact absurd rfl different
    | some neighbour => exact List.infix_cons stands
  · rw [List.concat_eq_append] at reached ⊢
    obtain ⟨before, after, rfl, spliced⟩ := splice?_eq reached.apart (reached.defined last (by simp))
      (Text.sameName_refl last.name) fun column => [column, definition]
    refine ⟨before ++ [last], after, by simp, ?_, ?_, ?_, ?_⟩
    · simp [Change.result?, free, spliced]
    · rw [List.getLast?_concat]
      exact ⟨before, after, by simp⟩
    · intro other place stands different
      rw [List.getLast?_concat] at different
      have stays := stands.splice different fun _ => ⟨[definition], rfl⟩
      simpa using stays
    · intro whole
      obtain rfl | ⟨rest, twin, rfl⟩ := after.eq_nil_or_concat
      · rfl
      · rw [List.concat_eq_append, ← List.cons_append, ← List.append_assoc] at whole
        obtain rfl : twin = last := (List.cons.inj (List.append_inj' whole rfl).2).1
        simpa [List.nodup_append] using reached.apart

theorem reached_add (new : definition.key ∉ old.map Definition.key) :
    ∃ next, Change.result? table (.add definition (done.getLast?.map (·.name))) = some next ∧
      Reached old (done ++ [definition]) next := by
  have absent : definition.key ∉ table.map Definition.key := by
    intro held
    obtain ⟨column, member, same⟩ := List.mem_map.mp held
    rcases reached.known column member with isOld | earlier
    · exact new (same ▸ List.mem_map_of_mem isOld)
    · exact key_ne_of_mem_done apart earlier same
  obtain ⟨before, after, rfl, applied, behind, keeps, atEnd⟩ := exists_added reached absent
  have mem_next : ∀ other, other ∈ before ++ definition :: after ↔ other = definition ∨ other ∈ before ++ after := by
    intro other
    simp only [List.mem_append, List.mem_cons]
    tauto
  refine ⟨_, applied, ?_, ?_, ?_, ?_, ?_, ?_, ?_⟩
  · have perm : ((before ++ definition :: after).map Definition.key).Perm
        ((definition :: (before ++ after)).map Definition.key) := List.perm_middle.map _
    rw [perm.nodup_iff]
    exact List.nodup_cons.mpr ⟨absent, reached.apart⟩
  · intro other member
    rw [mem_next]
    rcases List.mem_append.mp member with earlier | last
    · exact .inr (reached.defined other earlier)
    · exact .inl (List.mem_singleton.mp last)
  · intro other member
    rcases (mem_next other).mp member with rfl | kept
    · exact .inr (by simp)
    · exact (reached.known other kept).imp_right (List.mem_append_left _)
  · intro other member unnamed
    simp only [List.map_append, List.mem_append, not_or] at unnamed
    exact (mem_next other).mpr (.inr (reached.untouched other member unnamed.1))
  · have order := reached.order
    rw [List.map_append, List.filter_append] at order
    rw [List.map_append, List.map_cons, List.filter_append, List.filter_cons_of_neg (by simpa using new), order]
  · refine placed_concat ?_ fun _ => behind
    intro front other rest split isNew
    apply keeps other _ (reached.placed front other rest split isNew)
    intro same
    rw [split, List.getLast?_append_of_ne_nil _ (List.cons_ne_nil _ _)] at same
    obtain ⟨last, ending⟩ := Option.isSome_iff_exists.mp (List.getLast?_isSome.mpr (List.cons_ne_nil other rest))
    have inFront : last ∈ front := List.mem_of_getLast? (same.trans ending)
    rw [split, List.append_assoc, List.map_append, List.nodup_append] at apart
    exact apart.2.2 last.key (List.mem_map_of_mem inFront) last.key
      (List.mem_map_of_mem (List.mem_append_left _ (List.mem_of_getLast? ending))) rfl
  · intro none
    have whole := reached.fresh none
    obtain rfl := atEnd whole
    rw [← whole, List.append_nil]

end Step

theorem any_name_iff {old : List Definition} {definition : Definition} :
    (old.map (·.name)).any (Text.sameName · definition.name) = true ↔ definition.key ∈ old.map Definition.key := by
  rw [List.any_map]
  exact any_sameName_iff

theorem reached_resultAll {old done rest table : List Definition}
    (apart : ((done ++ rest).map Definition.key).Nodup) (reached : Reached old done table) :
    ∃ result, resultAll? table (changes (old.map (·.name)) (done.getLast?.map (·.name)) rest) = some result ∧
      Reached old (done ++ rest) result := by
  induction rest generalizing done table with
  | nil => exact ⟨table, rfl, by rwa [List.append_nil]⟩
  | cons definition rest ih =>
    have regrouped : done ++ definition :: rest = (done ++ [definition]) ++ rest := by simp
    rw [regrouped] at apart ⊢
    have apartSoFar : ((done ++ [definition]).map Definition.key).Nodup := by
      rw [List.map_append] at apart
      exact (List.nodup_append.mp apart).1
    have behind : some definition.name = (done ++ [definition]).getLast?.map (·.name) := by simp
    rw [changes, behind]
    by_cases there : definition.key ∈ old.map Definition.key
    · obtain ⟨next, applied, reachedNext⟩ := reached_modify reached apartSoFar there
      obtain ⟨result, appliedAll, reachedAll⟩ := ih apart reachedNext
      refine ⟨result, ?_, reachedAll⟩
      rw [if_pos (any_name_iff.mpr there), resultAll?, List.foldlM_cons, applied]
      exact appliedAll
    · obtain ⟨next, applied, reachedNext⟩ := reached_add reached apartSoFar there
      obtain ⟨result, appliedAll, reachedAll⟩ := ih apart reachedNext
      refine ⟨result, ?_, reachedAll⟩
      rw [if_neg (mt any_name_iff.mp there), resultAll?, List.foldlM_cons, applied]
      exact appliedAll

theorem changes_eq_modify {old definitions : List Definition} (defined : ∀ definition ∈ definitions, definition ∈ old)
    (before : Option String) : changes (old.map (·.name)) before definitions = definitions.map Change.modify := by
  induction definitions generalizing before with
  | nil => rfl
  | cons definition definitions ih =>
    rw [List.forall_mem_cons] at defined
    rw [changes, ih defined.2, if_pos (any_name_iff.mpr (List.mem_map_of_mem defined.1)), List.map_cons]

theorem resultAll?_modify {table definitions : List Definition} (apart : (table.map Definition.key).Nodup)
    (defined : ∀ definition ∈ definitions, definition ∈ table) :
    resultAll? table (definitions.map Change.modify) = some table := by
  induction definitions with
  | nil => rfl
  | cons definition definitions ih =>
    rw [List.forall_mem_cons] at defined
    obtain ⟨before, after, split, spliced⟩ :=
      splice?_eq apart defined.1 (Text.sameName_refl definition.name) fun _ => [definition]
    have unchanged : Change.result? table (.modify definition) = some table := by
      rw [Change.result?, spliced, split]
      simp
    rw [List.map_cons, resultAll?, List.foldlM_cons, unchanged]
    exact ih defined.2

section Statements

variable {builder : Builder n} {catalog : Catalog n} {codec : Codec n} {definitions : List Definition}

def keyClauses (codec : Codec n) (key : Option String) (hasKey : Bool) : List String :=
  if hasKey || (primaryKey key codec).isEmpty then []
  else ["ADD PRIMARY KEY (" ++ quotedList (primaryKey key codec) ++ ")"]

theorem alterTable_eq_ok (made : Schema.definitions builder catalog codec = .ok definitions) (database name : String)
    (key : Option String) (hasKey : Bool) (existing : List String) :
    alterTable builder catalog codec database name key hasKey existing =
      .ok ("ALTER TABLE " ++ quoteTable database name ++ " " ++ Text.joined ", "
        ((changes existing none definitions).map Change.text ++ keyClauses codec key hasKey)) := by
  rw [alterTable, made]
  rfl

/-- The clauses turn the old table into one that has the columns of a new table, among its old columns and in the
order of the definitions as far as the old columns leave it open. -/
structure BringsUpToDate (builder : Builder n) (catalog : Catalog n) (codec : Codec n)
    (definitions old result : List Definition) : Prop where
  created : ∀ database name key, ∃ more options, createTable builder catalog codec database name key =
    .ok (TableText.render
      { table := quoteTable database name, definitions := definitions.map (·.text) ++ more, options })
  altered : ∀ database name key hasKey existing,
    alterTable builder catalog codec database name key hasKey existing =
      .ok ("ALTER TABLE " ++ quoteTable database name ++ " " ++ Text.joined ", "
        ((changes existing none definitions).map Change.text ++ keyClauses codec key hasKey))
  applied : resultAll? old (changes (old.map (·.name)) none definitions) = some result
  reached : Reached old definitions result
  again : changes (result.map (·.name)) none definitions = definitions.map Change.modify
  settled : resultAll? result (definitions.map Change.modify) = some result

theorem clauses_bring_up_to_date (made : Schema.definitions builder catalog codec = .ok definitions)
    (apart : Text.Unlike (definitions.map (·.name))) {old : List Definition}
    (oldApart : Text.Unlike (old.map (·.name))) :
    ∃ result, BringsUpToDate builder catalog codec definitions old result := by
  rw [unlike_map_name] at apart oldApart
  have started : Reached old [] old := reached_start oldApart
  have whole : (([] ++ definitions).map Definition.key).Nodup := apart
  obtain ⟨result, applied, reached⟩ := reached_resultAll whole started
  refine ⟨result, ?_, alterTable_eq_ok made, applied, reached, changes_eq_modify reached.defined none,
    resultAll?_modify reached.apart reached.defined⟩
  intro database name key
  obtain ⟨more, created⟩ := createTable_of_definitions made database name key
  exact ⟨more, _, created⟩

def accounts : Catalog 2 :=
  List.get
    [⟨"Account",
      [{ name := "id", tag := "id,primary_key,auto_increment", type := .scalar (.signed .w64) },
       { name := "active", type := .scalar .bool },
       { name := "settings", type := .record (Fin.last 1) }]⟩,
     ⟨"Settings", [{ name := "theme", tag := ",stored_column", type := .scalar .bool }]⟩]

def idColumn : Definition := ⟨"id", "\x60id\x60 BIGINT NOT NULL AUTO_INCREMENT"⟩

def activeColumn : Definition := ⟨"active", "\x60active\x60 TINYINT(1) NOT NULL DEFAULT 0"⟩

def settingsColumn : Definition := ⟨"settings", "\x60settings\x60 JSON NOT NULL"⟩

def themeColumn : Definition :=
  ⟨"theme", "\x60theme\x60 TINYINT(1) AS (\x60settings\x60->>'$.theme') STORED"⟩

def accountColumns : List Definition := [idColumn, activeColumn, settingsColumn, themeColumn]

def noteColumn : Definition := ⟨"note", "\x60note\x60 TEXT"⟩

def oldAccountColumns : List Definition := [noteColumn, ⟨"Active", "\x60Active\x60 INT"⟩]

theorem accounts_are_brought_up_to_date :
    Schema.definitions (.mysql {}) accounts (.build accounts id 0) = .ok accountColumns ∧
      Text.Unlike (accountColumns.map (·.name)) ∧ Text.Unlike (oldAccountColumns.map (·.name)) ∧
      BringsUpToDate (.mysql {}) accounts (.build accounts id 0) accountColumns oldAccountColumns
        [idColumn, noteColumn, activeColumn, settingsColumn, themeColumn] := by
  have made : Schema.definitions (.mysql {}) accounts (.build accounts id 0) = .ok accountColumns := by
    simp only [definitions, Codec.properties, Codec.winners_eq_insertionSort, Codec.build_eq_insertionSort]
    rfl
  have apart : Text.Unlike (accountColumns.map (·.name)) := by decide
  have oldApart : Text.Unlike (oldAccountColumns.map (·.name)) := by decide
  obtain ⟨result, upToDate⟩ := clauses_bring_up_to_date made apart oldApart
  have shown : resultAll? oldAccountColumns (changes (oldAccountColumns.map (·.name)) none accountColumns) =
      some [idColumn, noteColumn, activeColumn, settingsColumn, themeColumn] := by decide
  obtain rfl := Option.some.inj (upToDate.applied.symm.trans shown)
  exact ⟨made, apart, oldApart, upToDate⟩

end Statements

end Schema

end SqlComposer
