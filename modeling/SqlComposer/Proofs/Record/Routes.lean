import SqlComposer.Proofs.Record.Growth
import SqlComposer.Text.Joined

namespace SqlComposer

variable {n : Nat}

namespace FieldDecl

def nameBy (naming : String → String) (decl : FieldDecl n) : String :=
  if decl.parsedTag.name = "" then naming decl.name else decl.parsedTag.name

def promotes (decl : FieldDecl n) : Bool :=
  decl.embedded && decl.type.base.record?.isSome && decl.parsedTag.name == ""

end FieldDecl

section Routes

variable (catalog : Catalog n)

def route : Fin n → List Nat → List (FieldDecl n)
  | _, [] => []
  | record, position :: rest => match (catalog record).fields[position]? with
    | none => []
    | some decl => decl :: match decl.type.base.record? with
      | none => []
      | some inner => route inner rest

def recordAt? : Fin n → List Nat → Option (Fin n)
  | record, [] => some record
  | record, position :: rest =>
    ((catalog record).fields[position]?.bind (·.type.base.record?)).bind fun inner => recordAt? inner rest

end Routes

variable {catalog : Catalog n} {naming : String → String}

theorem route_cons {record inner : Fin n} {position : Nat} {decl : FieldDecl n}
    (declared : (catalog record).fields[position]? = some decl)
    (leads : decl.type.base.record? = some inner) (rest : List Nat) :
    route catalog record (position :: rest) = decl :: route catalog inner rest := by
  simp [route, declared, leads]

theorem route_singleton {record : Fin n} {position : Nat} {decl : FieldDecl n}
    (declared : (catalog record).fields[position]? = some decl) :
    route catalog record [position] = [decl] := by
  cases leads : decl.type.base.record? <;> simp [route, declared, leads]

theorem route_append {record inner : Fin n} {stem : List Nat} (reached : recordAt? catalog record stem = some inner)
    (rest : List Nat) :
    route catalog record (stem ++ rest) = route catalog record stem ++ route catalog inner rest := by
  induction stem generalizing record with
  | nil =>
    obtain rfl := Option.some.inj reached
    rfl
  | cons position stem ih =>
    obtain ⟨entered, below, reached⟩ := Option.bind_eq_some_iff.mp reached
    obtain ⟨decl, declared, leads⟩ := Option.bind_eq_some_iff.mp below
    rw [List.cons_append, route_cons declared leads, route_cons declared leads, ih reached, List.cons_append]

theorem recordAt?_concat {record inner : Fin n} {stem : List Nat} (reached : recordAt? catalog record stem = some inner)
    (position : Nat) :
    recordAt? catalog record (stem ++ [position]) =
      (catalog inner).fields[position]?.bind (·.type.base.record?) := by
  induction stem generalizing record with
  | nil =>
    obtain rfl := Option.some.inj reached
    simp [recordAt?]
  | cons first stem ih =>
    obtain ⟨entered, below, reached⟩ := Option.bind_eq_some_iff.mp reached
    rw [List.cons_append, recordAt?, below, Option.bind_some, ih reached]

section Occurrences

variable {chain : List (Fin n)} {record : Fin n} {stem rest index : List Nat} {target decl : FieldDecl n}

theorem Occurs.split
    (occurs : Occurs catalog chain record (stem ++ rest) target) (properStem : stem ≠ []) (properRest : rest ≠ []) :
    ∃ decl inner inside, Occurs catalog chain record stem decl ∧ decl.type.base.record? = some inner ∧
      recordAt? catalog record stem = some inner ∧ Occurs catalog inside inner rest target := by
  induction stem generalizing chain record with
  | nil => contradiction
  | cons position stem ih =>
    obtain ⟨decl, inner, declared, kept, leads, free, occurs⟩ := (occurs_cons_iff (by simp [properRest])).mp occurs
    cases stem with
    | nil =>
      have goes : recordAt? catalog record [position] = some inner := by simp [recordAt?, declared, leads]
      exact ⟨decl, inner, inner :: chain, .here declared kept, leads, goes, occurs⟩
    | cons next stem =>
      obtain ⟨above, reached, inside, occursAbove, leadsAbove, goes, occursBelow⟩ :=
        ih occurs (List.cons_ne_nil _ _)
      refine ⟨above, reached, inside, .deeper declared kept leads free occursAbove, leadsAbove, ?_, occursBelow⟩
      rw [recordAt?, declared, Option.bind_some, leads, Option.bind_some, goes]

theorem Occurs.route_eq (occurs : Occurs catalog chain record index decl) :
    route catalog record index = route catalog record index.dropLast ++ [decl] := by
  obtain ⟨stem, position, rfl⟩ := (index.eq_nil_or_concat).resolve_left occurs.ne_nil
  rw [List.concat_eq_append] at occurs ⊢
  rw [List.dropLast_concat]
  rcases stem with _ | ⟨first, stem⟩
  · exact route_singleton (occurs_singleton_iff.mp occurs).1
  · obtain ⟨_, _, _, _, _, reached, below⟩ := occurs.split (List.cons_ne_nil _ _) (List.cons_ne_nil _ _)
    rw [route_append reached, route_singleton (occurs_singleton_iff.mp below).1]

theorem Occurs.route_ne_nil (occurs : Occurs catalog chain record index decl) : route catalog record index ≠ [] := by
  rw [occurs.route_eq]
  simp

theorem Occurs.of_mem_route (occurs : Occurs catalog chain record index target)
    (member : decl ∈ route catalog record index) :
    ∃ stem, stem <+: index ∧ Occurs catalog chain record stem decl := by
  induction occurs with
  | here declared kept =>
    obtain rfl : decl = _ := by simpa [route_singleton declared] using member
    exact ⟨_, List.prefix_rfl, .here declared kept⟩
  | deeper declared kept leads free _ ih =>
    rw [route_cons declared leads, List.mem_cons] at member
    rcases member with rfl | member
    · exact ⟨[_], List.cons_prefix_cons.mpr ⟨rfl, List.nil_prefix⟩, .here declared kept⟩
    · obtain ⟨stem, starts, occurs⟩ := ih member
      exact ⟨_, List.cons_prefix_cons.mpr ⟨rfl, starts⟩, .deeper declared kept leads free occurs⟩

theorem Occurs.of_mem_route_dropLast (occurs : Occurs catalog chain record index target)
    (member : decl ∈ route catalog record index.dropLast) :
    ∃ stem, stem <+: index.dropLast ∧ Occurs catalog chain record stem decl := by
  obtain ⟨stem, position, rfl⟩ := (index.eq_nil_or_concat).resolve_left occurs.ne_nil
  rw [List.concat_eq_append] at occurs member ⊢
  rw [List.dropLast_concat] at member ⊢
  rcases stem with _ | ⟨first, stem⟩
  · cases member
  · obtain ⟨_, _, _, occursAbove, _⟩ := occurs.split (List.cons_ne_nil _ _) (List.cons_ne_nil _ _)
    exact occursAbove.of_mem_route member

end Occurrences

def under (stem name : String) : String := if stem = "" then name else stem ++ "." ++ name

def keysOf (naming : String → String) (decls : List (FieldDecl n)) : List String :=
  (decls.filter (!·.promotes)).map (·.nameBy naming)

def stemOf (naming : String → String) (decls : List (FieldDecl n)) : String := (keysOf naming decls).foldl under ""

theorem keysOf_cons (decl : FieldDecl n) (decls : List (FieldDecl n)) :
    keysOf naming (decl :: decls) =
      if decl.promotes then keysOf naming decls else decl.nameBy naming :: keysOf naming decls := by
  cases promoting : decl.promotes <;> simp [keysOf, promoting]

theorem keysOf_append (decls more : List (FieldDecl n)) :
    keysOf naming (decls ++ more) = keysOf naming decls ++ keysOf naming more := by
  simp [keysOf]

theorem stemOf_concat (decls : List (FieldDecl n)) (decl : FieldDecl n) :
    stemOf naming (decls ++ [decl]) =
      if decl.promotes then stemOf naming decls else under (stemOf naming decls) (decl.nameBy naming) := by
  cases promoting : decl.promotes <;> simp [stemOf, keysOf, promoting]

/-- The names that make up the path of the last declaration. It has a name of its own even if it is promoting. -/
def pathKeys (naming : String → String) : List (FieldDecl n) → List String
  | [] => []
  | [decl] => [decl.nameBy naming]
  | decl :: decls => if decl.promotes then pathKeys naming decls else decl.nameBy naming :: pathKeys naming decls

theorem pathKeys_cons {decls : List (FieldDecl n)} (proper : decls ≠ []) (decl : FieldDecl n) :
    pathKeys naming (decl :: decls) =
      if decl.promotes then pathKeys naming decls else decl.nameBy naming :: pathKeys naming decls := by
  obtain ⟨next, rest, rfl⟩ := List.exists_cons_of_ne_nil proper
  rfl

theorem pathKeys_concat (decls : List (FieldDecl n)) (decl : FieldDecl n) :
    pathKeys naming (decls ++ [decl]) = keysOf naming decls ++ [decl.nameBy naming] := by
  induction decls with
  | nil => rfl
  | cons first decls ih =>
    rw [List.cons_append, pathKeys_cons (by simp), keysOf_cons, ih]
    cases first.promotes <;> rfl

theorem pathKeys_append (decls : List (FieldDecl n)) {more : List (FieldDecl n)} (proper : more ≠ []) :
    pathKeys naming (decls ++ more) = keysOf naming decls ++ pathKeys naming more := by
  obtain ⟨above, last, rfl⟩ := (more.eq_nil_or_concat).resolve_left proper
  rw [List.concat_eq_append, pathKeys_concat, ← List.append_assoc, pathKeys_concat, keysOf_append, List.append_assoc]

theorem exists_of_mem_pathKeys {decls : List (FieldDecl n)} {key : String} (member : key ∈ pathKeys naming decls) :
    ∃ decl ∈ decls, decl.nameBy naming = key := by
  obtain rfl | ⟨above, last, rfl⟩ := decls.eq_nil_or_concat
  · cases member
  · rw [List.concat_eq_append] at member ⊢
    rw [pathKeys_concat, List.mem_append, List.mem_singleton, keysOf] at member
    rcases member with member | rfl
    · obtain ⟨decl, kept, named⟩ := List.mem_map.mp member
      exact ⟨decl, List.mem_append_left _ (List.mem_of_mem_filter kept), named⟩
    · exact ⟨last, by simp, rfl⟩

theorem pathKeys_ne_nil {decls : List (FieldDecl n)} (proper : decls ≠ []) : pathKeys naming decls ≠ [] := by
  obtain ⟨above, last, rfl⟩ := (decls.eq_nil_or_concat).resolve_left proper
  rw [List.concat_eq_append, pathKeys_concat]
  simp

theorem foldl_under {stem : String} (proper : stem ≠ "") (keys : List String) :
    keys.foldl under stem = Text.joined "." (stem :: keys) := by
  induction keys generalizing stem with
  | nil => rfl
  | cons key keys ih =>
    have longer : under stem key = stem ++ "." ++ key := if_neg proper
    rw [List.foldl_cons, longer, ih (by simp [proper])]
    cases keys <;> simp [String.append_assoc]

theorem foldl_under_empty {keys : List String} (proper : ∀ key ∈ keys, key ≠ "") :
    keys.foldl under "" = Text.joined "." keys := by
  cases keys with
  | nil => rfl
  | cons key keys => exact foldl_under (proper key List.mem_cons_self) keys

def mayBeNull (decls : List (FieldDecl n)) : Bool := decls.any (·.type.kind.isNullable)

structure Site.Lies (catalog : Catalog n) (naming : String → String) (root : Fin n) (site : Site n) : Prop where
  reached : recordAt? catalog root site.index = some site.record
  stem : site.stem = stemOf naming (route catalog root site.index)
  nullable : site.nullable = mayBeNull (route catalog root site.index)

structure Field.Routed (catalog : Catalog n) (naming : String → String) (root : Fin n) (field : Field n) : Prop where
  path : field.path = under (stemOf naming (route catalog root field.index.dropLast)) field.name
  nullable : field.nullable = mayBeNull (route catalog root field.index)

theorem lies_root (record : Fin n) : (Site.root record).Lies catalog naming record := ⟨rfl, rfl, rfl⟩

section

variable {root : Fin n} {site : Site n} (lies : site.Lies catalog naming root) {decl : FieldDecl n} {position : Nat}
  (declared : (catalog site.record).fields[position]? = some decl)

include lies declared

theorem route_field :
    route catalog root (site.field naming position decl).index = route catalog root site.index ++ [decl] := by
  rw [Site.field, route_append lies.reached, route_singleton declared]

theorem routed_field : (site.field naming position decl).Routed catalog naming root where
  path := by simp only [Site.field, List.dropLast_concat, under, lies.stem]
  nullable := by
    rw [route_field lies declared]
    simp [Site.field, lies.nullable, mayBeNull]

theorem lies_below? {below : Site n} {number : Nat}
    (enters : site.below? (site.field naming position decl) number = some below) :
    below.Lies catalog naming root := by
  have routed : (site.field naming position decl).Routed catalog naming root := routed_field lies declared
  obtain ⟨inner, leads, _, rfl⟩ := below?_made enters
  refine ⟨?_, ?_, routed.nullable⟩
  · have leads : decl.type.base.record? = some inner := leads
    simp [Site.field, recordAt?_concat lies.reached, declared, leads]
  · show (if (site.field naming position decl).promotes then site.stem else _) = _
    rw [route_field lies declared, stemOf_concat, routed.path, lies.stem]
    simp only [Site.field, List.dropLast_concat]
    rfl

end

theorem forall_mem_grow {P : Site n → Prop} {Q : Field n → Prop}
    (own : ∀ site, P site → ∀ field ∈ site.fields naming catalog, Q field)
    (down : ∀ site, P site → ∀ field ∈ site.fields naming catalog, ∀ number below,
      site.below? field number = some below → P below)
    {rounds start : Nat} {sites : List (Site n)} (holds : ∀ site ∈ sites, P site) :
    ∀ field ∈ grow catalog naming rounds start sites, Q field := by
  induction rounds generalizing start sites with
  | zero => simp [grow]
  | succ rounds ih =>
    have holdsNext : ∀ below ∈ nextSites start (level catalog naming sites), P below := by
      intro below member
      obtain ⟨site, field, number, placed, enters⟩ := exists_of_mem_nextSites member
      obtain ⟨siteMember, declared⟩ := mem_level_iff.mp (List.fst_mem_of_mem_zipIdx placed)
      exact down site (holds site siteMember) field declared number below enters
    intro field member
    rcases List.mem_append.mp member with here | later
    · obtain ⟨⟨site, _⟩, paired, rfl⟩ := List.mem_map.mp here
      obtain ⟨siteMember, declared⟩ := mem_level_iff.mp paired
      exact own site (holds site siteMember) _ declared
    · exact ih holdsNext field later

theorem exists_of_mem_fields {site : Site n} {field : Field n} (member : field ∈ site.fields naming catalog) :
    ∃ decl position, (catalog site.record).fields[position]? = some decl ∧
      field = site.field naming position decl := by
  obtain ⟨⟨decl, position⟩, kept, rfl⟩ := List.mem_map.mp member
  exact ⟨decl, position, (mem_keptFields.mp kept).1, rfl⟩

namespace Codec

variable {record : Fin n} {field : Field n}

theorem routed_build (member : field ∈ (build catalog naming record).fields) :
    field.Routed catalog naming record := by
  obtain ⟨original, grown, same⟩ := exists_of_mem_inOrder member
  have routed : original.Routed catalog naming record := by
    refine forall_mem_grow (P := Site.Lies catalog naming record) ?_ ?_ ?_ original grown
    · intro site lies field member
      obtain ⟨_, _, declared, rfl⟩ := exists_of_mem_fields member
      exact routed_field lies declared
    · intro site lies field member number below enters
      obtain ⟨_, _, declared, rfl⟩ := exists_of_mem_fields member
      exact lies_below? lies declared enters
    · simpa using lies_root record
  rw [← same]
  exact ⟨routed.path, routed.nullable⟩

theorem exists_decl_of_mem (member : field ∈ (build catalog naming record).fields) :
    ∃ decl, Occurs catalog [record] record field.index decl ∧ field.name = decl.nameBy naming ∧
      field.type = decl.type ∧ field.promotes = decl.promotes := by
  obtain ⟨decl, occurs, made⟩ := occurs_of_mem member
  refine ⟨decl, occurs, congrArg Outline.name made, congrArg Outline.type made, ?_⟩
  have embedded : field.embedded = (decl.embedded && decl.type.base.record?.isSome) := congrArg Outline.embedded made
  have tag : field.tag = decl.parsedTag := congrArg Outline.tag made
  rw [Field.promotes, embedded, tag, FieldDecl.promotes]

theorem exists_mem_of_occurs (naming : String → String) {index : List Nat} {decl : FieldDecl n}
    (occurs : Occurs catalog [record] record index decl) :
    ∃ field ∈ (build catalog naming record).fields, field.index = index ∧ field.name = decl.nameBy naming ∧
      field.type = decl.type ∧ field.promotes = decl.promotes := by
  have listed : Entry.outline naming ⟨index, decl⟩ ∈ (build catalog naming record).fields.map Field.outline :=
    mem_outlines_iff.mpr ⟨decl, occurs, rfl⟩
  obtain ⟨field, member, made⟩ := List.mem_map.mp listed
  have shown : field.index = index := congrArg Outline.index made
  obtain ⟨other, occursToo, rest⟩ := exists_decl_of_mem member
  obtain rfl := occurs.unique (shown ▸ occursToo)
  exact ⟨field, member, shown, rest⟩

theorem path_eq_joined (named : ∀ field ∈ (build catalog naming record).fields, field.name ≠ "")
    (member : field ∈ (build catalog naming record).fields) :
    field.path = Text.joined "." (pathKeys naming (route catalog record field.index)) := by
  obtain ⟨decl, occurs, name, _⟩ := exists_decl_of_mem member
  rw [occurs.route_eq, pathKeys_concat, ← name]
  have proper : ∀ key ∈ keysOf naming (route catalog record field.index.dropLast) ++ [field.name], key ≠ "" := by
    simp only [keysOf, List.mem_append, List.mem_map, List.mem_filter, List.mem_singleton]
    rintro _ (⟨above, ⟨onRoute, _⟩, rfl⟩ | rfl)
    · obtain ⟨stem, _, occursAbove⟩ := occurs.of_mem_route (occurs.route_eq ▸ List.mem_append_left _ onRoute)
      obtain ⟨other, otherMember, _, name, _⟩ := exists_mem_of_occurs naming occursAbove
      exact name ▸ named other otherMember
    · exact named field member
  rw [(routed_build member).path, ← foldl_under_empty proper, List.foldl_append]
  rfl

end Codec

end SqlComposer
