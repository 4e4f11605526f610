import SqlComposer.Proofs.Schema.Generated
import SqlComposer.Record.Naming
/-!
Computed columns under a naming convention.

The path of a computed column is made of the names that the convention gives, the document of a value of the names
that were declared. They differ as soon as a field on the way has no name in its tag and the convention changes its
name, and then the path leads to something else or nowhere.
-/

namespace SqlComposer

variable {n : Nat} {catalog : Catalog n} {naming : String → String}

def pathDecls : List (FieldDecl n) → List (FieldDecl n)
  | [] => []
  | [decl] => [decl]
  | decl :: decls => if decl.promotes then pathDecls decls else decl :: pathDecls decls

theorem pathKeys_eq_map (decls : List (FieldDecl n)) :
    pathKeys naming decls = (pathDecls decls).map (·.nameBy naming) := by
  induction decls using pathDecls.induct with
  | case1 => rfl
  | case2 decl => rfl
  | case3 decl decls proper promoting ih =>
    rw [pathKeys_cons proper, pathDecls.eq_3 _ _ proper, promoting, if_pos rfl, if_pos rfl, ih]
  | case4 decl decls proper own ih =>
    rw [pathKeys_cons proper, pathDecls.eq_3 _ _ proper, if_neg own, if_neg own, ih, List.map_cons]

theorem pathDecls_ne_nil {decls : List (FieldDecl n)} (proper : decls ≠ []) : pathDecls decls ≠ [] := by
  have keys := @pathKeys_ne_nil n id _ proper
  rw [pathKeys_eq_map] at keys
  simpa using keys

theorem pathDecls_append (decls : List (FieldDecl n)) {more : List (FieldDecl n)} (proper : more ≠ []) :
    pathDecls (decls ++ more) = decls.filter (!·.promotes) ++ pathDecls more := by
  induction decls with
  | nil => rfl
  | cons decl decls ih =>
    rw [List.cons_append, pathDecls.eq_3 _ _ (by simp [proper]), ih]
    cases promoting : decl.promotes <;> simp [promoting]

/-- The field has no name in its tag, and the convention changes the one that was declared. -/
def FieldDecl.Renamed (naming : String → String) (decl : FieldDecl n) : Prop :=
  decl.parsedTag.name = "" ∧ naming decl.name ≠ decl.name

theorem nameBy_of_not_renamed {decl : FieldDecl n} (same : ¬ decl.Renamed naming) :
    decl.nameBy naming = decl.nameBy id := by
  by_cases untagged : decl.parsedTag.name = "" <;> simp_all [FieldDecl.Renamed, FieldDecl.nameBy]

section Lost

variable {chain : List (Fin n)} {record : Fin n}

def NewNames (catalog : Catalog n) (naming : String → String) (chain : List (Fin n)) (record : Fin n)
    (decls : List (FieldDecl n)) : Prop :=
  ∀ decl ∈ decls, decl.Renamed naming → ∀ index target, Occurs catalog chain record index target →
    target.nameBy id ≠ decl.nameBy naming

theorem Separated.lookup_of_undeclared (separated : Separated catalog chain record) {values : List Datum}
    (fit : Datum.valuesFit catalog (catalog record).fields values = true) {key : String}
    (undeclared : ∀ index target, Occurs catalog chain record index target → target.nameBy id ≠ key) :
    (Datum.recordJson catalog (catalog record).fields values []).lookup key = none := by
  by_contra held
  obtain ⟨entry, held⟩ := Option.ne_none_iff_exists'.mp held
  obtain ⟨position, adds⟩ := exists_adds held
  obtain ⟨rest, target, occurs, keys⟩ := separated.exists_of_adds fit adds
  rw [occurs.route_eq, pathKeys_concat] at keys
  exact undeclared _ target occurs (by simpa using congrArg List.getLast? keys)

theorem Separated.follow?_of_first {decls more : List (FieldDecl n)} {first : FieldDecl n}
    (separated : Separated catalog chain record) (new : NewNames catalog naming chain record (pathDecls decls))
    (split : pathDecls decls = first :: more) (renamed : first.Renamed naming) {values : List Datum}
    (fit : Datum.valuesFit catalog (catalog record).fields values = true) :
    Json.follow? (pathKeys naming decls) (.object (Datum.recordJson catalog (catalog record).fields values [])) =
      none := by
  have undeclared := new first (by simp [split]) renamed
  rw [pathKeys_eq_map, split, List.map_cons, Json.follow?_object, separated.lookup_of_undeclared fit undeclared]
  rfl

theorem Separated.follow?_of_renamed {index : List Nat} {target : FieldDecl n}
    (occurs : Occurs catalog chain record index target) (separated : Separated catalog chain record)
    (renamed : ∃ decl ∈ pathDecls (route catalog record index), decl.Renamed naming)
    (new : NewNames catalog naming chain record (pathDecls (route catalog record index))) {values : List Datum}
    (fit : Datum.valuesFit catalog (catalog record).fields values = true) :
    Json.follow? (pathKeys naming (route catalog record index))
      (.object (Datum.recordJson catalog (catalog record).fields values [])) = none := by
  induction occurs generalizing values with
  | here declared kept =>
    rw [route_singleton declared] at renamed new ⊢
    obtain ⟨decl, member, renamed⟩ := renamed
    obtain rfl := List.mem_singleton.mp member
    exact separated.follow?_of_first new rfl renamed fit
  | @deeper chain record position decl inner rest target declared kept leads free occurs ih =>
    have whole : Occurs catalog chain record (position :: rest) target := .deeper declared kept leads free occurs
    obtain ⟨part, held, fits⟩ := Datum.valuesFit_getElem? fit declared
    have proper : route catalog inner rest ≠ [] := occurs.route_ne_nil
    have shown : pathDecls (route catalog record (position :: rest)) =
        if decl.promotes then pathDecls (route catalog inner rest)
        else decl :: pathDecls (route catalog inner rest) := by
      rw [route_cons declared leads, pathDecls.eq_3 _ _ proper]
    have newBelow : NewNames catalog naming (inner :: chain) inner (pathDecls (route catalog inner rest)) := by
      intro other member changed index below occursBelow
      refine new other ?_ changed (position :: index) below (.deeper declared kept leads free occursBelow)
      rw [shown]
      split
      · exact member
      · exact List.mem_cons_of_mem _ member
    have inside (renamedBelow : ∃ other ∈ pathDecls (route catalog inner rest), other.Renamed naming) :
        Json.follow? (pathKeys naming (route catalog inner rest)) (part.toJson catalog decl.type) = none := by
      rcases Datum.opens_of_fits leads fits with missing | ⟨innerValues, opens⟩
      · rw [Datum.toJson_of_absent missing, Json.follow?_null (pathKeys_ne_nil proper)]
      · rw [opens.document]
        exact ih (separated.below declared kept leads free) renamedBelow newBelow opens.valuesFit
    obtain ⟨first, more, split⟩ := List.exists_cons_of_ne_nil (pathDecls_ne_nil whole.route_ne_nil)
    by_cases changed : first.Renamed naming
    · exact separated.follow?_of_first new split changed fit
    -- The first key is as declared and leads to the part at the position; the rest is lost inside.
    have keys (naming : String → String) : pathKeys naming (route catalog record (position :: rest)) =
        first.nameBy naming :: more.map (·.nameBy naming) := by rw [pathKeys_eq_map, split, List.map_cons]
    rw [keys, nameBy_of_not_renamed changed, Json.follow?_object, separated.lookup_eq fit declared held whole (keys id)]
    cases promoting : decl.promotes with
    | true =>
      rw [promoting, if_pos rfl] at shown
      have keysBelow (naming : String → String) : pathKeys naming (route catalog inner rest) =
          first.nameBy naming :: more.map (·.nameBy naming) := by
        rw [pathKeys_eq_map, ← shown, split, List.map_cons]
      rw [separated.lookup_entriesOf declared kept leads free promoting occurs (keysBelow id) fits]
      rw [shown] at renamed
      have lost := inside renamed
      rw [keysBelow, nameBy_of_not_renamed changed] at lost
      exact lost
    | false =>
      rw [promoting, if_neg Bool.false_ne_true] at shown
      obtain ⟨rfl, rfl⟩ := List.cons.inj (split.symm.trans shown)
      obtain ⟨other, member, renamedToo⟩ := renamed
      rw [split] at member
      have below := (List.mem_cons.mp member).resolve_left fun same => changed (same ▸ renamedToo)
      have lost := inside ⟨other, below, renamedToo⟩
      rw [promotes_iff leads] at promoting
      rw [entriesOf_own kept promoting, ← pathKeys_eq_map]
      simpa using lost

theorem Separated.along {stem rest : List Nat} {target : FieldDecl n} (separated : Separated catalog chain record)
    (occurs : Occurs catalog chain record (stem ++ rest) target) (proper : rest ≠ []) :
    ∃ inside inner, recordAt? catalog record stem = some inner ∧ Occurs catalog inside inner rest target ∧
      Separated catalog inside inner ∧ ∀ index below, Occurs catalog inside inner index below →
        Occurs catalog chain record (stem ++ index) below := by
  induction stem generalizing chain record with
  | nil => exact ⟨chain, record, rfl, occurs, separated, fun _ _ => id⟩
  | cons position stem ih =>
    obtain ⟨decl, entered, declared, kept, leads, free, occurs⟩ := (occurs_cons_iff (by simp [proper])).mp occurs
    obtain ⟨inside, inner, reached, occursBelow, separatedBelow, back⟩ :=
      ih (separated.below declared kept leads free) occurs
    refine ⟨inside, inner, ?_, occursBelow, separatedBelow, ?_⟩
    · rw [recordAt?, declared, Option.bind_some, leads, Option.bind_some, reached]
    · intro index below occursToo
      exact .deeper declared kept leads free (back index below occursToo)

end Lost

namespace Codec

variable {record : Fin n} {root field : Field n}

def declsInside (catalog : Catalog n) (record : Fin n) (index : List Nat) : List (FieldDecl n) :=
  (pathDecls (route catalog record index)).tail

theorem exists_twin (other : String → String) (member : field ∈ (build catalog naming record).fields) :
    ∃ twin ∈ (build catalog other record).fields, twin.index = field.index ∧ twin.type = field.type ∧
      twin.promotes = field.promotes := by
  obtain ⟨decl, occurs, _, type, promotes⟩ := exists_decl_of_mem member
  obtain ⟨twin, twinMember, index, _, twinType, twinPromotes⟩ := exists_mem_of_occurs other occurs
  exact ⟨twin, twinMember, index, twinType.trans type.symm, twinPromotes.trans promotes.symm⟩

theorem IsRoot.twin {other : String → String} (isRoot : (build catalog naming record).IsRoot root field)
    {twinRoot twin : Field n} (member : twinRoot ∈ (build catalog other record).fields)
    (rootIndex : twinRoot.index = root.index) (rootPromotes : twinRoot.promotes = root.promotes)
    (index : twin.index = field.index) : (build catalog other record).IsRoot twinRoot twin where
  member := member
  above := by
    rw [rootIndex, index]
    exact isRoot.above
  proper := by
    rw [rootIndex, index]
    exact isRoot.proper
  own := rootPromotes.trans isRoot.own
  outermost := by
    intro ancestor ancestorMember starts different
    obtain ⟨original, originalMember, shown, _, promotes⟩ := exists_twin naming ancestorMember
    rw [← promotes]
    apply isRoot.outermost original originalMember
    · rwa [shown, ← rootIndex]
    · rwa [shown, ← rootIndex]

theorem documentKeys_eq_map (plain : (build catalog naming record).HasPlainPaths catalog)
    (isRoot : (build catalog naming record).IsRoot root field)
    (member : field ∈ (build catalog naming record).fields) :
    Schema.documentKeys root field = (declsInside catalog record field.index).map (·.nameBy naming) := by
  have keys := (documentKeys_eq plain isRoot member).1
  rw [pathKeys_eq_map] at keys
  rw [declsInside, List.map_tail, keys, List.tail_cons]

theorem declsInside_eq (isRoot : (build catalog naming record).IsRoot root field) {rest : List Nat} {inner : Fin n}
    (split : root.index ++ rest = field.index) (reached : recordAt? catalog record root.index = some inner)
    (proper : route catalog inner rest ≠ []) :
    declsInside catalog record field.index = pathDecls (route catalog inner rest) := by
  obtain ⟨decl, single, _⟩ := List.map_eq_singleton_iff.mp (keysOf_route_root isRoot)
  rw [declsInside, ← split, route_append reached, pathDecls_append _ proper, single]
  rfl

section Computed

variable (plain : (build catalog naming record).HasPlainPaths catalog)
  (plainToo : (build catalog id record).HasPlainPaths catalog)
  (isRoot : (build catalog naming record).IsRoot root field)
  (member : field ∈ (build catalog naming record).fields) {value : Datum}
  (fits : value.fits catalog (.record record) = true)

include plainToo isRoot member fits

theorem follow?_declared (own : field.promotes = false) :
    ∃ column, value.valueAt catalog (.record record) root.index = some column ∧
      Json.follow? ((declsInside catalog record field.index).map (·.nameBy id)) column.document =
        (value.below? field.index).map (Datum.toJson catalog field.type) := by
  obtain ⟨twin, twinMember, index, type, promotes⟩ := exists_twin id member
  obtain ⟨twinRoot, rootMember, rootIndex, _, rootPromotes⟩ := exists_twin id isRoot.member
  have isRootToo : (build catalog id record).IsRoot twinRoot twin :=
    isRoot.twin rootMember rootIndex rootPromotes index
  obtain ⟨column, read, followed⟩ := exists_column plainToo isRootToo twinMember (promotes.trans own) fits
  rw [documentKeys_eq_map plainToo isRootToo twinMember, index, type] at followed
  rw [rootIndex] at read
  exact ⟨column, read, followed⟩

theorem follow?_renamed (renamed : ∃ decl ∈ declsInside catalog record field.index, decl.Renamed naming)
    (new : ∀ decl ∈ declsInside catalog record field.index, decl.Renamed naming →
      ∀ other ∈ (build catalog id record).fields, other.name ≠ decl.nameBy naming)
    {column : SqlValue} (read : value.valueAt catalog (.record record) root.index = some column) :
    Json.follow? ((declsInside catalog record field.index).map (·.nameBy naming)) column.document = none := by
  obtain ⟨rest, split⟩ := isRoot.above
  have proper : rest ≠ [] := by
    rintro rfl
    exact isRoot.proper (by simpa using split)
  obtain ⟨target, occurs, _⟩ := exists_decl_of_mem member
  obtain ⟨rootDecl, occursRoot, _, rootType, _⟩ := exists_decl_of_mem isRoot.member
  rw [← split] at occurs
  obtain ⟨_, inner, _, occursAbove, leads, reached, _⟩ := occurs.split occursRoot.ne_nil proper
  obtain rfl := occursRoot.unique occursAbove
  obtain ⟨inside, _, reachedToo, below, separated, back⟩ :=
    (separated_of_plainPaths plainToo).along occurs proper
  obtain rfl := Option.some.inj (reached.symm.trans reachedToo)
  rw [declsInside_eq isRoot split reached below.route_ne_nil] at renamed new ⊢
  have newInside : NewNames catalog naming inside inner (pathDecls (route catalog inner rest)) := by
    intro decl onWay changed index other occursOther
    obtain ⟨reachedField, reachedMember, _, name, _⟩ := exists_mem_of_occurs id (back index other occursOther)
    exact name ▸ new decl onWay changed reachedField reachedMember
  have unread : Json.follow? ((pathDecls (route catalog inner rest)).map (·.nameBy naming)) .null = none :=
    Json.follow?_null (by simpa using pathDecls_ne_nil below.route_ne_nil)
  rcases reads_of_mem isRoot.member fits with ⟨part, _, fitsPart, shown⟩ | ⟨_, _, shown⟩
  · obtain rfl := Option.some.inj (read.symm.trans shown)
    rw [rootType] at fitsPart ⊢
    rw [Datum.document_encode leads fitsPart]
    rcases Datum.opens_of_fits leads fitsPart with missing | ⟨values, opens⟩
    · rwa [Datum.toJson_of_absent missing]
    · rw [opens.document, ← pathKeys_eq_map]
      exact separated.follow?_of_renamed below renamed newInside opens.valuesFit
  · obtain rfl := Option.some.inj (read.symm.trans shown)
    exact unread

end Computed

/-- The text of a computed column follows the names of the convention. Under the declared names the document of its
column holds the field's own document; under those of the convention it does if none is changed, and it holds nothing
there if those that are changed are new. -/
structure FollowsConvention (catalog : Catalog n) (naming : String → String) (record : Fin n) (root field : Field n) :
    Prop where
  text : ∀ builder definition,
    Schema.generatedDefinition builder catalog (build catalog naming record) field = .ok (some definition) →
      ∃ sqlType storage, definition.text = Sql.quote definition.name ++ " " ++ sqlType ++ " AS (" ++
        Sql.quote root.name ++ "->>" ++ Schema.literal ("$." ++ Text.joined "."
          ((declsInside catalog record field.index).map (·.nameBy naming))) ++ ") " ++ storage
  there : ∀ value : Datum, value.fits catalog (.record record) = true →
    ((value.below? field.index).isSome = true ↔ ¬ value.AbsentAbove field.index)
  declared : ∀ value : Datum, value.fits catalog (.record record) = true →
    ∃ column, value.valueAt catalog (.record record) root.index = some column ∧
      Json.follow? ((declsInside catalog record field.index).map (·.nameBy id)) column.document =
        (value.below? field.index).map (Datum.toJson catalog field.type)
  kept : (∀ decl ∈ declsInside catalog record field.index, ¬ decl.Renamed naming) →
    (declsInside catalog record field.index).map (·.nameBy naming) =
      (declsInside catalog record field.index).map (·.nameBy id)
  lost : (∃ decl ∈ declsInside catalog record field.index, decl.Renamed naming) →
    (∀ decl ∈ declsInside catalog record field.index, decl.Renamed naming →
      ∀ other ∈ (build catalog id record).fields, other.name ≠ decl.nameBy naming) →
    ∀ value : Datum, value.fits catalog (.record record) = true →
      ∀ column, value.valueAt catalog (.record record) root.index = some column →
        Json.follow? ((declsInside catalog record field.index).map (·.nameBy naming)) column.document = none

theorem computed_columns_follow_the_convention (plain : (build catalog naming record).HasPlainPaths catalog)
    (plainToo : (build catalog id record).HasPlainPaths catalog)
    (member : field ∈ (build catalog naming record).fields) (own : field.promotes = false)
    (rooted : (build catalog naming record).columnRoot? field = some root) :
    FollowsConvention catalog naming record root field where
  text := by
    intro builder definition made
    have isRoot := isRoot_of_columnRoot? member rooted
    obtain ⟨column, storage, _, shown⟩ := Schema.generatedDefinition_eq_ok rooted made
    refine ⟨column.sqlType, storage, ?_⟩
    rw [shown, Schema.generatedText, (documentKeys_eq plain isRoot member).2, documentKeys_eq_map plain isRoot member]
  there := by
    intro value fits
    rcases reads_of_mem member fits with ⟨part, found, _⟩ | ⟨absent, _⟩
    · have there : ¬ value.AbsentAbove field.index := by
        intro absent
        rw [Datum.below?_of_absentAbove absent] at found
        cases found
      simp [found, there]
    · simp [Datum.below?_of_absentAbove absent, absent]
  declared _ fits := follow?_declared plainToo (isRoot_of_columnRoot? member rooted) member fits own
  kept := by
    intro unchanged
    apply List.map_congr_left
    intro decl onWay
    exact nameBy_of_not_renamed (unchanged decl onWay)
  lost renamed new _ fits _ read :=
    follow?_renamed plainToo (isRoot_of_columnRoot? member rooted) member fits renamed new read

def garage : Catalog 2 :=
  List.get
    [⟨"Car", [{ name := "paint", type := .record (Fin.last 1) }]⟩,
     ⟨"Paint", [{ name := "color", tag := ",virtual_column", type := .scalar .string }]⟩]

def paint (naming : String → String) : Field 2 where
  name := naming "paint"
  path := naming "paint"
  type := .record (Fin.last 1)
  index := [0]
  tag := .parse ""
  nullable := false
  embedded := false
  parent := none

def color (naming : String → String) : Field 2 where
  name := naming "color"
  path := naming "paint" ++ "." ++ naming "color"
  type := .scalar .string
  index := [0, 0]
  tag := .parse ",virtual_column"
  nullable := false
  embedded := false
  parent := some 0

def redCar : Datum := .record [.record [.string "red"]]

def marked : String → String := Naming.prefixed "f_"

theorem garage_follows_the_convention :
    (build garage marked 0).HasPlainPaths garage ∧ (build garage id 0).HasPlainPaths garage ∧
      color marked ∈ (build garage marked 0).fields ∧ (color marked).promotes = false ∧
      (build garage marked 0).columnRoot? (color marked) = some (paint marked) ∧
      FollowsConvention garage marked 0 (paint marked) (color marked) := by
  have made : build garage marked 0 = ⟨0, "Car", [paint marked, color marked]⟩ := by
    rw [build_eq_insertionSort]
    decide
  have madeToo : build garage id 0 = ⟨0, "Car", [paint id, color id]⟩ := by
    rw [build_eq_insertionSort]
    decide
  have plain : (build garage marked 0).HasPlainPaths garage := by
    rw [made]
    constructor <;> decide
  have plainToo : (build garage id 0).HasPlainPaths garage := by
    rw [madeToo]
    constructor <;> decide
  have member : color marked ∈ (build garage marked 0).fields := by
    rw [made]
    decide
  have own : (color marked).promotes = false := by decide
  have rooted : (build garage marked 0).columnRoot? (color marked) = some (paint marked) := by
    rw [made]
    decide
  exact ⟨plain, plainToo, member, own, rooted,
    computed_columns_follow_the_convention plain plainToo member own rooted⟩

theorem marked_color_is_lost :
    Schema.definitions (.mysql {}) garage (build garage marked 0) = .ok
        [⟨"f_paint", "\x60f_paint\x60 JSON NOT NULL"⟩,
         ⟨"f_color", "\x60f_color\x60 VARCHAR(191) AS (\x60f_paint\x60->>'$.f_color') VIRTUAL"⟩] ∧
      redCar.fits garage (.record 0) = true ∧ ¬ redCar.AbsentAbove [0, 0] ∧
      redCar.valueAt garage (.record 0) [0] = some (.json (.object [("color", .string "red")])) ∧
      Json.follow? ["f_color"] (.object [("color", .string "red")]) = none ∧
      Json.follow? ["color"] (.object [("color", .string "red")]) = some (.string "red") := by
  have made : Schema.definitions (.mysql {}) garage (build garage marked 0) = .ok
      [⟨"f_paint", "\x60f_paint\x60 JSON NOT NULL"⟩,
       ⟨"f_color", "\x60f_color\x60 VARCHAR(191) AS (\x60f_paint\x60->>'$.f_color') VIRTUAL"⟩] := by
    simp only [Schema.definitions, properties, winners_eq_insertionSort, build_eq_insertionSort]
    rfl
  refine ⟨made, by decide, ?_, by rfl, by rfl, by rfl⟩
  intro absent
  have missing := Datum.below?_of_absentAbove absent
  simp [Datum.below?, Datum.content?, redCar] at missing

end Codec

end SqlComposer
