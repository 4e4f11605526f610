import SqlComposer.Proofs.Record.Values
/-!
Documents of records.

The document of a record takes in the entries of the promoting records below it. As long as no two fields come
by the same keys, following the keys of a field leads to the document of the field's own value.
-/

namespace SqlComposer

variable {n : Nat} {catalog : Catalog n}

namespace Json

def follow? : List String → Json → Option Json
  | [], document => some document
  | key :: keys, document => (document.get? key).bind (follow? keys)

theorem follow?_append (keys more : List String) (document : Json) :
    follow? (keys ++ more) document = (follow? keys document).bind (follow? more) := by
  induction keys generalizing document with
  | nil => rfl
  | cons key keys ih => simp [follow?, ih, Option.bind_assoc]

theorem follow?_null {keys : List String} (proper : keys ≠ []) : follow? keys .null = none := by
  obtain ⟨key, keys, rfl⟩ := List.exists_cons_of_ne_nil proper
  rfl

theorem follow?_object (key : String) (keys : List String) (entries : List (String × Json)) :
    follow? (key :: keys) (.object entries) = (entries.lookup key).bind (follow? keys) := rfl

theorem lookup_put (key other : String) (value : Json) (entries : List (String × Json)) :
    (put key value entries).lookup other = ([(key, value)].lookup other).or (entries.lookup other) := by
  by_cases same : other = key
  · subst same
    simp [lookup_put_self]
  · rw [lookup_put_of_ne same]
    simp [List.lookup_cons, beq_eq_false_iff_ne.mpr same]

theorem lookup_putNew (key other : String) (value : Json) (entries : List (String × Json)) :
    (putNew key value entries).lookup other = (entries.lookup other).or ([(key, value)].lookup other) := by
  unfold putNew
  cases held : entries.lookup key with
  | none =>
    rw [Option.isSome_none, if_neg Bool.false_ne_true, lookup_put]
    by_cases same : other = key
    · subst same
      simp [held]
    · simp [List.lookup_cons, beq_eq_false_iff_ne.mpr same]
  | some first =>
    rw [Option.isSome_some, if_pos rfl]
    by_cases same : other = key
    · subst same
      simp [held]
    · simp [List.lookup_cons, beq_eq_false_iff_ne.mpr same]

theorem lookup_foldl_putNew (key : String) (more entries : List (String × Json)) :
    (more.foldl (fun entries (key, value) => putNew key value entries) entries).lookup key =
      (entries.lookup key).or (more.lookup key) := by
  induction more generalizing entries with
  | nil => simp
  | cons entry more ih =>
    obtain ⟨k, v⟩ := entry
    rw [List.foldl_cons, ih, lookup_putNew, Option.or_assoc]
    congr 1
    rw [List.lookup_cons, List.lookup_cons]
    cases key == k <;> rfl

end Json

def FieldDecl.entriesOf (decl : FieldDecl n) (document : Json) : List (String × Json) :=
  if !decl.isKept then []
  else match decl.embedded && decl.parsedTag.name == "", document with
    | true, .object entries => entries
    | _, _ => [(decl.nameBy id, document)]

def FieldDecl.spreads (decl : FieldDecl n) : Json → Bool
  | .object _ => decl.embedded && decl.parsedTag.name == ""
  | _ => false

section Entries

variable {decl : FieldDecl n} {document : Json} {entries : List (String × Json)} {key : String}

theorem entriesOf_own (kept : decl.isKept = true) (own : (decl.embedded && decl.parsedTag.name == "") = false)
    (document : Json) : decl.entriesOf document = [(decl.nameBy id, document)] := by
  unfold FieldDecl.entriesOf
  rw [kept, own]
  rfl

theorem entriesOf_null (kept : decl.isKept = true) : decl.entriesOf .null = [(decl.nameBy id, .null)] := by
  unfold FieldDecl.entriesOf
  rw [kept]
  cases decl.embedded && decl.parsedTag.name == "" <;> rfl

theorem entriesOf_object (kept : decl.isKept = true)
    (promoting : (decl.embedded && decl.parsedTag.name == "") = true) : decl.entriesOf (.object entries) = entries := by
  unfold FieldDecl.entriesOf
  rw [kept, promoting]
  rfl

theorem entriesOf_of_own (kept : decl.isKept = true) (own : decl.spreads document = false) :
    decl.entriesOf document = [(decl.nameBy id, document)] := by
  cases embedded : decl.embedded && decl.parsedTag.name == "" with
  | false => exact entriesOf_own kept embedded document
  | true => cases document with
    | object inner => simp [FieldDecl.spreads, embedded] at own
    | _ => simp [FieldDecl.entriesOf, kept]

theorem lookup_entriesOf_of_spreads (kept : decl.isKept = true) (spreads : decl.spreads document = true)
    (key : String) : (decl.entriesOf document).lookup key = document.get? key := by
  cases document with
  | object inner =>
    rw [entriesOf_object kept spreads]
    rfl
  | _ => cases spreads

theorem addTo_of_not_kept (left : decl.isKept = false) : decl.addTo document entries = entries := by
  simp [FieldDecl.addTo, left]

theorem lookup_addTo_of_own (kept : decl.isKept = true) (own : decl.spreads document = false) (key : String) :
    (decl.addTo document entries).lookup key =
      ([(decl.nameBy id, document)].lookup key).or (entries.lookup key) := by
  simp only [FieldDecl.addTo, kept]
  cases embedded : decl.embedded && decl.parsedTag.name == "" with
  | false => exact Json.lookup_put ..
  | true => cases document with
    | object inner => simp [FieldDecl.spreads, embedded] at own
    | _ => exact Json.lookup_put ..

theorem lookup_addTo_of_spreads (kept : decl.isKept = true) (spreads : decl.spreads document = true) (key : String) :
    (decl.addTo document entries).lookup key = (entries.lookup key).or (document.get? key) := by
  cases document with
  | object inner =>
    have embedded : (decl.embedded && decl.parsedTag.name == "") = true := spreads
    simp only [FieldDecl.addTo, kept, embedded]
    exact Json.lookup_foldl_putNew ..
  | _ => cases spreads

theorem lookup_addTo (decl : FieldDecl n) (document : Json) (entries : List (String × Json)) (key : String) :
    (decl.addTo document entries).lookup key = (entries.lookup key).or ((decl.entriesOf document).lookup key) ∨
      (decl.addTo document entries).lookup key = ((decl.entriesOf document).lookup key).or (entries.lookup key) := by
  cases kept : decl.isKept with
  | false => exact .inl (by simp [addTo_of_not_kept kept, FieldDecl.entriesOf, kept])
  | true => cases spreads : decl.spreads document with
    | true => exact .inl (by rw [lookup_addTo_of_spreads kept spreads, lookup_entriesOf_of_spreads kept spreads])
    | false => exact .inr (by rw [lookup_addTo_of_own kept spreads, entriesOf_of_own kept spreads])

theorem lookup_addTo_of_absent (absent : (decl.entriesOf document).lookup key = none) :
    (decl.addTo document entries).lookup key = entries.lookup key := by
  rcases lookup_addTo decl document entries key with shown | shown <;> simp [shown, absent]

theorem lookup_addTo_of_free (free : entries.lookup key = none) :
    (decl.addTo document entries).lookup key = (decl.entriesOf document).lookup key := by
  rcases lookup_addTo decl document entries key with shown | shown <;> simp [shown, free]

theorem lookup_addTo_of_other (other : decl.isKept = true → decl.spreads document = false → decl.nameBy id ≠ key) :
    (decl.addTo document entries).lookup key = (entries.lookup key).or
      (if decl.isKept = true ∧ decl.spreads document = true then document.get? key else none) := by
  cases kept : decl.isKept with
  | false => simp [addTo_of_not_kept kept]
  | true => cases spreads : decl.spreads document with
    | true => simp [lookup_addTo_of_spreads kept spreads]
    | false =>
      have different := beq_eq_false_iff_ne.mpr (other kept spreads).symm
      simp [lookup_addTo_of_own kept spreads, List.lookup_cons, different]

end Entries

section Records

variable {decls : List (FieldDecl n)} {values : List Datum} {entries : List (String × Json)} {key : String}

def Adds (catalog : Catalog n) (decls : List (FieldDecl n)) (values : List Datum) (key : String) (position : Nat) :
    Prop :=
  ∃ decl value, decls[position]? = some decl ∧ values[position]? = some value ∧
    (decl.entriesOf (value.toJson catalog decl.type)).lookup key ≠ none

theorem lookup_recordJson_of_absent (absent : ∀ position, ¬ Adds catalog decls values key position) :
    (Datum.recordJson catalog decls values entries).lookup key = entries.lookup key := by
  induction decls generalizing values entries with
  | nil => rw [Datum.recordJson]; simp
  | cons decl decls ih => cases values with
    | nil => rw [Datum.recordJson]; simp
    | cons value values =>
      have first : (decl.entriesOf (value.toJson catalog decl.type)).lookup key = none := by
        by_contra adds
        exact absent 0 ⟨decl, value, rfl, rfl, adds⟩
      rw [Datum.recordJson, ih, lookup_addTo_of_absent first]
      rintro position ⟨later, held, adds⟩
      exact absent (position + 1) ⟨later, held, adds⟩

theorem lookup_recordJson_of_others {position : Nat} {decl : FieldDecl n} {value : Datum}
    (declared : decls[position]? = some decl) (held : values[position]? = some value)
    (others : ∀ other, Adds catalog decls values key other → other = position) (free : entries.lookup key = none) :
    (Datum.recordJson catalog decls values entries).lookup key =
      (decl.entriesOf (value.toJson catalog decl.type)).lookup key := by
  induction decls generalizing values entries position with
  | nil => simp at declared
  | cons first decls ih => cases values with
    | nil => simp at held
    | cons top values =>
      rw [Datum.recordJson]
      cases position with
      | zero =>
        obtain rfl : first = decl := by simpa using declared
        obtain rfl : top = value := by simpa using held
        rw [lookup_recordJson_of_absent, lookup_addTo_of_free free]
        rintro later ⟨decl, value, adds⟩
        exact absurd (others (later + 1) ⟨decl, value, adds⟩) (Nat.succ_ne_zero later)
      | succ position =>
        have absent : (first.entriesOf (top.toJson catalog first.type)).lookup key = none := by
          by_contra adds
          exact absurd (others 0 ⟨first, top, rfl, rfl, adds⟩) (Nat.succ_ne_zero position).symm
        refine ih (by simpa using declared) (by simpa using held) ?_ ?_
        · rintro other ⟨decl, value, adds⟩
          exact Nat.succ.inj (others (other + 1) ⟨decl, value, adds⟩)
        · rw [lookup_addTo_of_absent absent, free]

theorem exists_adds {entry : Json} (held : (Datum.recordJson catalog decls values []).lookup key = some entry) :
    ∃ position, Adds catalog decls values key position := by
  by_contra none
  rw [lookup_recordJson_of_absent (not_exists.mp none)] at held
  cases held

end Records

/-- No two fields below the record come by the same keys, and what is embedded without a name is a record that is
entered. -/
structure Separated (catalog : Catalog n) (chain : List (Fin n)) (record : Fin n) : Prop where
  distinct : ∀ {index other decl otherDecl}, Occurs catalog chain record index decl →
    Occurs catalog chain record other otherDecl →
    pathKeys id (route catalog record index) = pathKeys id (route catalog record other) → index = other
  expanded : ∀ {index decl}, Occurs catalog chain record index decl → decl.embedded = true →
    decl.parsedTag.name = "" → ∃ inner, decl.type.base.record? = some inner ∧
      ∀ position below, (catalog inner).fields[position]? = some below → below.isKept = true →
        Occurs catalog chain record (index ++ [position]) below

section Separated

variable {chain : List (Fin n)} {record inner : Fin n} {position : Nat} {decl : FieldDecl n}

theorem pathKeys_deeper {naming : String → String} {rest : List Nat} {target : FieldDecl n}
    (declared : (catalog record).fields[position]? = some decl) (leads : decl.type.base.record? = some inner)
    (occurs : Occurs catalog (inner :: chain) inner rest target) :
    pathKeys naming (route catalog record (position :: rest)) =
      if decl.promotes then pathKeys naming (route catalog inner rest)
      else decl.nameBy naming :: pathKeys naming (route catalog inner rest) := by
  rw [route_cons declared leads, pathKeys_cons occurs.route_ne_nil]

theorem promotes_iff (leads : decl.type.base.record? = some inner) :
    decl.promotes = (decl.embedded && decl.parsedTag.name == "") := by
  rw [FieldDecl.promotes, leads, Option.isSome_some, Bool.and_true]

theorem Separated.below (separated : Separated catalog chain record)
    (declared : (catalog record).fields[position]? = some decl) (kept : decl.isKept = true)
    (leads : decl.type.base.record? = some inner) (free : inner ∉ chain) :
    Separated catalog (inner :: chain) inner where
  distinct := by
    intro index other target otherTarget occurs occursToo same
    have deeper : position :: index = position :: other := by
      apply separated.distinct (.deeper declared kept leads free occurs) (.deeper declared kept leads free occursToo)
      rw [pathKeys_deeper declared leads occurs, pathKeys_deeper declared leads occursToo, same]
    exact (List.cons.inj deeper).2
  expanded := by
    intro index target occurs embedded untagged
    obtain ⟨last, leadsOn, entered⟩ :=
      separated.expanded (.deeper declared kept leads free occurs) embedded untagged
    refine ⟨last, leadsOn, fun place below declaredBelow keptBelow => ?_⟩
    obtain ⟨_, _, declaredToo, _, leadsToo, _, occursBelow⟩ :=
      (occurs_cons_iff (by simp)).mp (entered place below declaredBelow keptBelow)
    obtain rfl := Option.some.inj (declared.symm.trans declaredToo)
    obtain rfl := Option.some.inj (leads.symm.trans leadsToo)
    exact occursBelow

theorem Occurs.exists_firstKey {index : List Nat} (occurs : Occurs catalog chain record index decl) {key : String}
    {keys : List String} (shown : pathKeys id (route catalog record index) = key :: keys) :
    ∃ stem above, stem <+: index ∧ Occurs catalog chain record stem above ∧
      pathKeys id (route catalog record stem) = [key] := by
  induction occurs with
  | @here _ _ position decl declared kept =>
    refine ⟨[position], decl, List.prefix_rfl, .here declared kept, ?_⟩
    rw [route_singleton declared] at shown ⊢
    exact congrArg (fun key => [key]) (List.cons.inj shown).1
  | @deeper _ _ position decl _ _ _ declared kept leads free occurs ih =>
    rw [pathKeys_deeper declared leads occurs] at shown
    cases promoting : decl.promotes with
    | true =>
      rw [promoting, if_pos rfl] at shown
      obtain ⟨stem, above, starts, occursAbove, first⟩ := ih shown
      refine ⟨position :: stem, above, List.cons_prefix_cons.mpr ⟨rfl, starts⟩,
        .deeper declared kept leads free occursAbove, ?_⟩
      rw [pathKeys_deeper declared leads occursAbove, promoting, if_pos rfl, first]
    | false =>
      rw [promoting, if_neg Bool.false_ne_true] at shown
      refine ⟨[position], decl, List.cons_prefix_cons.mpr ⟨rfl, List.nil_prefix⟩, .here declared kept, ?_⟩
      rw [route_singleton declared]
      exact congrArg (fun key => [key]) (List.cons.inj shown).1

theorem isKept_of_adds {key : String} {document : Json} (adds : (decl.entriesOf document).lookup key ≠ none) :
    decl.isKept = true := by
  cases kept : decl.isKept with
  | true => rfl
  | false => simp [FieldDecl.entriesOf, kept] at adds

theorem nameBy_of_lookup {key : String} {document : Json} (held : [(decl.nameBy id, document)].lookup key ≠ none) :
    decl.nameBy id = key := by
  by_contra different
  simp [List.lookup_cons, beq_eq_false_iff_ne.mpr (Ne.symm different)] at held

theorem Separated.exists_of_adds (separated : Separated catalog chain record) {values : List Datum}
    (fit : Datum.valuesFit catalog (catalog record).fields values = true) {key : String}
    (adds : Adds catalog (catalog record).fields values key position) :
    ∃ rest target, Occurs catalog chain record (position :: rest) target ∧
      pathKeys id (route catalog record (position :: rest)) = [key] := by
  -- The record of an embedded field is entered, so it is new to the chain and the induction may go on there.
  induction chain, record using chain_induction generalizing values key position with
  | enter chain record ih =>
    obtain ⟨decl, value, declared, held, adds⟩ := adds
    have kept := isKept_of_adds adds
    have own (named : decl.nameBy id = key) : ∃ rest target, Occurs catalog chain record (position :: rest) target ∧
        pathKeys id (route catalog record (position :: rest)) = [key] := by
      refine ⟨[], decl, .here declared kept, ?_⟩
      rw [route_singleton declared, ← named]
      rfl
    cases promoting : decl.embedded && decl.parsedTag.name == "" with
    | false =>
      rw [entriesOf_own kept promoting] at adds
      exact own (nameBy_of_lookup adds)
    | true =>
      have flags : decl.embedded = true ∧ decl.parsedTag.name = "" := by simpa using promoting
      obtain ⟨inner, leads, entered⟩ := separated.expanded (.here declared kept) flags.1 flags.2
      obtain ⟨_, heldToo, fits⟩ := Datum.valuesFit_getElem? fit declared
      obtain rfl := Option.some.inj (held.symm.trans heldToo)
      rcases Datum.opens_of_fits leads fits with missing | ⟨inside, opens⟩
      · rw [Datum.toJson_of_absent missing, entriesOf_null kept] at adds
        exact own (nameBy_of_lookup adds)
      · rw [opens.document, entriesOf_object kept promoting] at adds
        obtain ⟨entry, shown⟩ := Option.ne_none_iff_exists'.mp adds
        obtain ⟨place, addsInside⟩ := exists_adds shown
        have ⟨below, _, declaredBelow, _, addsBelow⟩ := addsInside
        have occursBelow := entered place below declaredBelow (isKept_of_adds addsBelow)
        obtain ⟨_, _, declaredToo, _, leadsToo, free, _⟩ := (occurs_cons_iff (by simp)).mp occursBelow
        obtain rfl := Option.some.inj (declared.symm.trans declaredToo)
        obtain rfl := Option.some.inj (leads.symm.trans leadsToo)
        obtain ⟨rest, target, occurs, keys⟩ :=
          ih inner free (separated.below declared kept leads free) opens.valuesFit addsInside
        refine ⟨place :: rest, target, .deeper declared kept leads free occurs, ?_⟩
        rw [pathKeys_deeper declared leads occurs, promotes_iff leads, promoting, if_pos rfl, keys]

theorem Separated.lookup_eq (separated : Separated catalog chain record) {values : List Datum}
    (fit : Datum.valuesFit catalog (catalog record).fields values = true)
    (declared : (catalog record).fields[position]? = some decl) {value : Datum}
    (held : values[position]? = some value) {rest : List Nat} {target : FieldDecl n}
    (occurs : Occurs catalog chain record (position :: rest) target) {key : String} {keys : List String}
    (shown : pathKeys id (route catalog record (position :: rest)) = key :: keys) :
    (Datum.recordJson catalog (catalog record).fields values []).lookup key =
      (decl.entriesOf (value.toJson catalog decl.type)).lookup key := by
  refine lookup_recordJson_of_others declared held ?_ rfl
  intro other adds
  obtain ⟨otherRest, otherTarget, occursOther, keysOther⟩ := separated.exists_of_adds fit adds
  obtain ⟨stem, above, starts, occursAbove, first⟩ := occurs.exists_firstKey shown
  have same : other :: otherRest = stem := separated.distinct occursOther occursAbove (keysOther.trans first.symm)
  rw [← same] at starts
  exact (List.cons_prefix_cons.mp starts).1

theorem Separated.lookup_entriesOf (separated : Separated catalog chain record)
    (declared : (catalog record).fields[position]? = some decl) (kept : decl.isKept = true)
    (leads : decl.type.base.record? = some inner) (free : inner ∉ chain) (promoting : decl.promotes = true)
    {rest : List Nat} {target : FieldDecl n} (occurs : Occurs catalog (inner :: chain) inner rest target)
    {key : String} {keys : List String} (shown : pathKeys id (route catalog inner rest) = key :: keys)
    {value : Datum} (fits : value.fits catalog decl.type = true) :
    (decl.entriesOf (value.toJson catalog decl.type)).lookup key = (value.toJson catalog decl.type).get? key := by
  rcases Datum.opens_of_fits leads fits with missing | ⟨values, opens⟩
  · -- If the key were that of the entry left behind, the field and the record would share it.
    rw [Datum.toJson_of_absent missing, entriesOf_null kept]
    by_contra adds
    have named : decl.nameBy id = key := nameBy_of_lookup adds
    obtain ⟨stem, above, _, occursAbove, first⟩ := occurs.exists_firstKey shown
    have same : position :: stem = [position] := by
      apply separated.distinct (.deeper declared kept leads free occursAbove) (.here declared kept)
      rw [pathKeys_deeper declared leads occursAbove, promoting, if_pos rfl, first, route_singleton declared, ← named]
      rfl
    exact occursAbove.ne_nil (List.cons.inj same).2
  · rw [promotes_iff leads] at promoting
    rw [opens.document, entriesOf_object kept promoting]
    rfl

theorem Separated.follow?_eq {index : List Nat} (occurs : Occurs catalog chain record index decl)
    (own : decl.promotes = false) (separated : Separated catalog chain record) {values : List Datum}
    (fit : Datum.valuesFit catalog (catalog record).fields values = true) :
    Json.follow? (pathKeys id (route catalog record index))
        (.object (Datum.recordJson catalog (catalog record).fields values [])) =
      ((Datum.record values).below? index).map (Datum.toJson catalog decl.type) := by
  induction occurs generalizing values with
  | @here chain record position decl declared kept =>
    obtain ⟨part, held, fits⟩ := Datum.valuesFit_getElem? fit declared
    have single : (decl.embedded && decl.parsedTag.name == "") = false := by
      by_contra promoting
      have flags : decl.embedded = true ∧ decl.parsedTag.name = "" := by simpa using promoting
      obtain ⟨inner, leads, _⟩ := separated.expanded (.here declared kept) flags.1 flags.2
      exact promoting (promotes_iff leads ▸ own)
    have keys : pathKeys id (route catalog record [position]) = [decl.nameBy id] := by
      rw [route_singleton declared]
      rfl
    rw [keys, Json.follow?_object, separated.lookup_eq fit declared held (.here declared kept) keys,
      entriesOf_own kept single, Datum.below?_cons rfl, held]
    simp [Json.follow?, Datum.below?]
  | @deeper chain record position decl inner rest target declared kept leads free occurs ih =>
    obtain ⟨part, held, fits⟩ := Datum.valuesFit_getElem? fit declared
    have whole : Occurs catalog chain record (position :: rest) target := .deeper declared kept leads free occurs
    have proper : pathKeys id (route catalog inner rest) ≠ [] := pathKeys_ne_nil occurs.route_ne_nil
    have inside : Json.follow? (pathKeys id (route catalog inner rest)) (part.toJson catalog decl.type) =
        (part.below? rest).map (Datum.toJson catalog target.type) := by
      rcases Datum.opens_of_fits leads fits with missing | ⟨innerValues, opens⟩
      · rw [Datum.toJson_of_absent missing, Json.follow?_null proper, Datum.below?_of_absent missing occurs.ne_nil]
        rfl
      · rw [opens.document, ih own (separated.below declared kept leads free) opens.valuesFit,
          opens.below?_eq occurs.ne_nil]
    have shown : pathKeys id (route catalog record (position :: rest)) = _ := pathKeys_deeper declared leads occurs
    rw [Datum.below?_cons rfl, held, Option.bind_some, ← inside]
    -- A promoting record takes no key: the first one is found among the entries that it has brought along.
    cases promoting : decl.promotes with
    | true =>
      rw [promoting, if_pos rfl] at shown
      obtain ⟨key, keys, split⟩ := List.exists_cons_of_ne_nil proper
      rw [shown, split, Json.follow?_object, separated.lookup_eq fit declared held whole (shown.trans split),
        separated.lookup_entriesOf declared kept leads free promoting occurs split fits]
      rfl
    | false =>
      rw [promoting, if_neg Bool.false_ne_true] at shown
      rw [promotes_iff leads] at promoting
      rw [shown, Json.follow?_object, separated.lookup_eq fit declared held whole shown, entriesOf_own kept promoting]
      simp

end Separated

end SqlComposer
