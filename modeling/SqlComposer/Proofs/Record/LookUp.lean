import SqlComposer.Proofs.Record.Shadowing
import SqlComposer.Proofs.Record.Words

namespace SqlComposer

variable {n : Nat} {catalog : Catalog n} {naming : String → String}

theorem toLower_eq_dot {c : Char} (lower : c.toLower = '.') : c = '.' := by
  cases capital : c.isUpper with
  | false => rwa [Naming.toLower_of_not_isUpper capital] at lower
  | true =>
    have bounds := Naming.isUpper_iff.mp capital
    have shifted := Naming.toNat_toLower capital
    have dot : '.'.toNat = 46 := rfl
    rw [lower] at shifted
    omega

namespace Text

theorem dot_mem_of_sameName {a b : String} (same : sameName a b = true) (dotted : '.' ∈ a.toList) :
    '.' ∈ b.toList := by
  have lower : a.toList.map Char.toLower = b.toList.map Char.toLower :=
    String.ofList_injective (sameName_iff.mp same)
  have shown : '.' ∈ b.toList.map Char.toLower := lower ▸ List.mem_map_of_mem dotted
  obtain ⟨c, member, isDot⟩ := List.mem_map.mp shown
  rwa [← toLower_eq_dot isDot]

theorem dot_mem_joined (key : String) {keys : List String} (proper : keys ≠ []) :
    '.' ∈ (joined "." (key :: keys)).toList := by
  obtain ⟨next, rest, rfl⟩ := List.exists_cons_of_ne_nil proper
  simp [String.toList_append]

end Text

theorem Occurs.mem_route_dropLast {chain : List (Fin n)} {record : Fin n} {stem index : List Nat}
    {above target : FieldDecl n} (occurs : Occurs catalog chain record index target)
    (occursAbove : Occurs catalog chain record stem above) (starts : stem <+: index) (different : stem ≠ index) :
    above ∈ route catalog record index.dropLast := by
  obtain ⟨rest, whole⟩ := (Codec.prefix_dropLast_iff occurs.ne_nil).mpr ⟨starts, different⟩
  obtain ⟨below, rfl⟩ := starts
  have proper : below ≠ [] := fun none => different (by simp [none])
  obtain ⟨_, _, _, _, _, reached, _⟩ := occurs.split occursAbove.ne_nil proper
  rw [← whole, route_append reached, occursAbove.route_eq]
  simp

namespace Codec

variable {record : Fin n} {column field : Field n}

theorem isCandidate_of_undotted (named : ∀ field ∈ (build catalog naming record).fields, field.name ≠ "")
    (member : field ∈ (build catalog naming record).fields) (own : field.isNamed = true)
    (undotted : '.' ∉ field.path.toList) :
    (build catalog naming record).IsCandidate field ∧ field.path = field.name := by
  obtain ⟨decl, occurs, name, _, _⟩ := exists_decl_of_mem member
  have path := path_eq_joined named member
  rw [occurs.route_eq, pathKeys_concat, ← name] at path
  have noneAbove : keysOf naming (route catalog record field.index.dropLast) = [] := by
    cases above : keysOf naming (route catalog record field.index.dropLast) with
    | nil => rfl
    | cons key keys =>
      rw [above, List.cons_append] at path
      exact absurd (path ▸ Text.dot_mem_joined key (by simp)) undotted
  rw [noneAbove, List.nil_append, Text.joined_singleton] at path
  simp only [Field.isNamed, Bool.and_eq_true, bne_iff_ne, ne_eq, Bool.not_eq_true'] at own
  refine ⟨⟨member, own.1, own.2, ?_⟩, path⟩
  intro ancestor ancestorMember starts different
  obtain ⟨above, occursAbove, _, _, promotesAbove⟩ := exists_decl_of_mem ancestorMember
  have onRoute := occurs.mem_route_dropLast occursAbove starts different
  rw [keysOf, List.map_eq_nil_iff, List.filter_eq_nil_iff] at noneAbove
  simpa [promotesAbove] using noneAbove above onRoute

def WinsPath (codec : Codec n) (field : Field n) : Prop :=
  field ∈ codec.fields ∧ field.isNamed = true ∧
    ∀ other ∈ codec.fields, other.isNamed = true → field.path = other.path → field.Beats other

theorem ascending_isNamed (catalog : Catalog n) (naming : String → String) (record : Fin n) :
    ((build catalog naming record).fields.filter (·.isNamed)).Pairwise fun field other => field.index < other.index :=
  (ascending_fieldTree record).filter _

theorem mem_named_iff :
    field ∈ (build catalog naming record).named ↔ (build catalog naming record).WinsPath field := by
  rw [named, mem_winners_iff equivalence_samePath (ascending_isNamed catalog naming record), WinsPath]
  simp only [List.mem_filter, samePath, beq_iff_eq, and_assoc, and_imp]

theorem exists_winsPath (member : field ∈ (build catalog naming record).fields) (own : field.isNamed = true) :
    ∃ winner, (build catalog naming record).WinsPath winner ∧ winner.path = field.path := by
  have settled := settled_winners equivalence_samePath (ascending_isNamed catalog naming record)
  obtain ⟨winner, winnerMember, same, _⟩ := settled.decided field (List.mem_filter.mpr ⟨member, own⟩)
  exact ⟨winner, mem_named_iff.mp winnerMember, beq_iff_eq.mp same⟩

theorem WinsPath.unique {other : Field n} (wins : (build catalog naming record).WinsPath field)
    (winsToo : (build catalog naming record).WinsPath other) (same : field.path = other.path) : field = other := by
  have settled := settled_winners equivalence_samePath (ascending_isNamed catalog naming record)
  exact settled.apart field (mem_named_iff.mpr wins) other (mem_named_iff.mpr winsToo) (beq_iff_eq.mpr same)

theorem first_of_find? {fields : List (Field n)} {accepts : Field n → Bool} {first : Field n}
    (ascending : fields.Pairwise fun field other => field.index < other.index)
    (found : fields.find? accepts = some first) (member : field ∈ fields) (accepted : accepts field = true) :
    first.index ≤ field.index := by
  obtain ⟨_, before, after, rfl, missed⟩ := List.find?_eq_some_iff_append.mp found
  rcases List.mem_append.mp member with early | late
  · have rejected := missed field early
    simp [accepted] at rejected
  · rcases List.mem_cons.mp late with rfl | later
    · exact le_refl _
    · exact le_of_lt ((List.pairwise_cons.mp (List.pairwise_append.mp ascending).2.1).1 field later)

theorem IsCandidate.isNamed {codec : Codec n} (candidate : codec.IsCandidate field) : field.isNamed = true := by
  simp [Field.isNamed, candidate.2.1, candidate.2.2.1]

theorem IsCandidate.path_eq (candidate : (build catalog naming record).IsCandidate field) :
    field.path = field.name := by
  obtain ⟨member, _, own, outermost⟩ := candidate
  obtain ⟨_, promoted, _⟩ := exists_promoted member own outermost
  exact path_of_promoted member promoted

theorem winsPath_of_mem_properties (named : ∀ field ∈ (build catalog naming record).fields, field.name ≠ "")
    (member : column ∈ (build catalog naming record).properties) (undotted : '.' ∉ column.name.toList) :
    (build catalog naming record).WinsPath column := by
  obtain ⟨candidate, beats⟩ := ((build_hasColumns catalog naming record).winning column).mp member
  refine ⟨candidate.1, candidate.isNamed, ?_⟩
  intro other otherMember otherNamed same
  rw [candidate.path_eq] at same
  obtain ⟨otherCandidate, path⟩ := isCandidate_of_undotted named otherMember otherNamed (same ▸ undotted)
  apply beats other otherCandidate
  rw [sameColumn, same.trans path]
  exact Text.sameName_refl _

theorem WinsPath.competes {spelling : String} (wins : (build catalog naming record).WinsPath field)
    (named : ∀ field ∈ (build catalog naming record).fields, field.name ≠ "") (undotted : '.' ∉ column.name.toList)
    (spelled : Text.sameName column.name spelling = true) (similar : Text.sameName field.path spelling = true) :
    (build catalog naming record).IsCandidate field ∧ sameColumn column field = true := by
  have same : Text.sameName field.path column.name = true :=
    Text.sameName_trans similar ((Text.sameName_comm _ _).trans spelled)
  have undottedToo : '.' ∉ field.path.toList := fun dotted => undotted (Text.dot_mem_of_sameName same dotted)
  obtain ⟨candidate, path⟩ := isCandidate_of_undotted named wins.1 wins.2.1 undottedToo
  rw [path, Text.sameName_comm] at same
  exact ⟨candidate, same⟩

structure FindsWinners (codec : Codec n) : Prop where
  paths : ∀ field ∈ codec.fields, field.isNamed = true →
    ∃ winner, codec.lookUp? field.path = some winner ∧ winner.path = field.path ∧ codec.WinsPath winner
  columns : (∀ field ∈ codec.fields, field.name ≠ "") → ∀ column ∈ codec.properties, '.' ∉ column.name.toList →
    codec.lookUp? column.name = some column

theorem lookUp?_of_winsPath (wins : (build catalog naming record).WinsPath field) :
    (build catalog naming record).lookUp? field.path = some field := by
  have found : (build catalog naming record).named.find? (fun other => other.path == field.path) = some field := by
    cases found : (build catalog naming record).named.find? fun other => other.path == field.path with
    | none => simpa using List.find?_eq_none.mp found field (mem_named_iff.mpr wins)
    | some other =>
      have winsToo := mem_named_iff.mp (List.mem_of_find?_eq_some found)
      have same : other.path = field.path := by simpa using List.find?_some found
      rw [winsToo.unique wins same]
  simp only [lookUp?, found]

theorem build_findsWinners (catalog : Catalog n) (naming : String → String) (record : Fin n) :
    (build catalog naming record).FindsWinners where
  paths := by
    intro field member named
    obtain ⟨winner, wins, path⟩ := exists_winsPath member named
    exact ⟨winner, path ▸ lookUp?_of_winsPath wins, path, wins⟩
  columns := by
    intro named column member undotted
    have candidate := isCandidate_of_mem_properties member
    have found := lookUp?_of_winsPath (winsPath_of_mem_properties named member undotted)
    rwa [candidate.path_eq] at found

/-- The field is the first of those whose paths are spelled like the name of the column but for the case. With every
field named and no dot in the column's name, those it competes with are the ones that compete for the column. -/
structure FindsFirst (codec : Codec n) (column : Field n) (spelling : String) (found : Field n) : Prop where
  answered : codec.lookUp? spelling = some found
  wins : codec.WinsPath found
  similar : Text.sameName found.path spelling = true
  first : ∀ rival, codec.WinsPath rival → Text.sameName rival.path spelling = true → found.index ≤ rival.index
  own : found = column ↔ codec.WinsPath column ∧
    ∀ rival, codec.WinsPath rival → Text.sameName rival.path spelling = true → column.index ≤ rival.index
  rivals : (∀ field ∈ codec.fields, field.name ≠ "") → '.' ∉ column.name.toList → codec.WinsPath column ∧
    ∀ rival, codec.WinsPath rival → Text.sameName rival.path spelling = true →
      codec.IsCandidate rival ∧ sameColumn column rival = true
  alike : (∀ field ∈ codec.fields, field.name ≠ "") → '.' ∉ column.name.toList →
    (∀ rival, codec.IsCandidate rival → sameColumn column rival = true → rival.name = column.name) → found = column

theorem lookUp?_of_no_path {spelling : String}
    (free : ∀ field ∈ (build catalog naming record).fields, field.path ≠ spelling) :
    (build catalog naming record).lookUp? spelling =
      (build catalog naming record).named.find? fun field => Text.sameName field.path spelling := by
  have inexact : (build catalog naming record).named.find? (fun field => field.path == spelling) = none := by
    refine List.find?_eq_none.mpr fun field member same => ?_
    exact free field (mem_named_iff.mp member).1 (beq_iff_eq.mp same)
  simp only [lookUp?, inexact]

theorem spellings_find_the_first (member : column ∈ (build catalog naming record).properties) {spelling : String}
    (spelled : Text.sameName column.name spelling = true)
    (free : ∀ field ∈ (build catalog naming record).fields, field.path ≠ spelling) :
    ∃ found, (build catalog naming record).FindsFirst column spelling found := by
  have candidate := isCandidate_of_mem_properties member
  have columnSpelled : Text.sameName column.path spelling = true := candidate.path_eq ▸ spelled
  obtain ⟨found, answered⟩ : ∃ found, (build catalog naming record).lookUp? spelling = some found := by
    obtain ⟨winner, wins, path⟩ := exists_winsPath candidate.1 candidate.isNamed
    rw [lookUp?_of_no_path free]
    exact Option.isSome_iff_exists.mp (List.find?_isSome.mpr ⟨winner, mem_named_iff.mpr wins, path ▸ columnSpelled⟩)
  have isFound := (lookUp?_of_no_path free).symm.trans answered
  have wins := mem_named_iff.mp (List.mem_of_find?_eq_some isFound)
  have similar : Text.sameName found.path spelling = true := by simpa using List.find?_some isFound
  have first : ∀ rival, (build catalog naming record).WinsPath rival → Text.sameName rival.path spelling = true →
      found.index ≤ rival.index := by
    intro rival rivalWins rivalSpelled
    have ascending := ascending_winners equivalence_samePath (ascending_isNamed catalog naming record)
    exact first_of_find? ascending isFound (mem_named_iff.mpr rivalWins) rivalSpelled
  refine ⟨found, answered, wins, similar, first, ⟨?_, ?_⟩, ?_, ?_⟩
  · intro same
    exact same ▸ ⟨wins, first⟩
  · rintro ⟨columnWins, before⟩
    exact eq_of_index (ascending_fieldTree record) wins.1 candidate.1
      (le_antisymm (first column columnWins columnSpelled) (before found wins similar))
  · intro named undotted
    refine ⟨winsPath_of_mem_properties named member undotted, ?_⟩
    exact fun rival rivalWins => rivalWins.competes named undotted spelled
  · intro named undotted alike
    obtain ⟨foundCandidate, same⟩ := wins.competes named undotted spelled similar
    apply wins.unique (winsPath_of_mem_properties named member undotted)
    rw [foundCandidate.path_eq, candidate.path_eq, alike found foundCandidate same]

def members : Catalog 2 :=
  List.get
    [⟨"Member",
      [{ name := "person", type := .record (Fin.last 1), embedded := true },
       { name := "name", type := .scalar .string }]⟩,
     ⟨"Person", [{ name := "Name", type := .scalar .string }]⟩]

def nameOfMember : Field 2 where
  name := "name"
  path := "name"
  type := .scalar .string
  index := [1]
  tag := .parse ""
  nullable := false
  embedded := false
  parent := none

theorem columns_of_members : (build members id 0).properties = [nameOfMember] := by
  simp only [properties, winners_eq_insertionSort, build_eq_insertionSort]
  decide

theorem names_of_members : ∀ field ∈ (build members id 0).fields, '.' ∉ field.name.toList ∧ field.path ≠ "NAME" := by
  have names : (build members id 0).fields.map (fun field => (field.name, field.path)) =
      [("person", "person"), ("Name", "Name"), ("name", "name")] := by
    rw [build_eq_insertionSort]
    decide
  have unlike : ∀ entry ∈ (build members id 0).fields.map fun field => (field.name, field.path),
      '.' ∉ entry.1.toList ∧ entry.2 ≠ "NAME" := by simp [names]
  exact fun field member => unlike _ (List.mem_map_of_mem member)

theorem name_of_member_is_looked_up :
    nameOfMember ∈ (build members id 0).properties ∧ Text.sameName nameOfMember.name "NAME" = true ∧
      (∀ field ∈ (build members id 0).fields, field.path ≠ "NAME") ∧
      ∃ found, (build members id 0).FindsFirst nameOfMember "NAME" found := by
  have member : nameOfMember ∈ (build members id 0).properties := by simp [columns_of_members]
  have spelled : Text.sameName nameOfMember.name "NAME" = true := by decide
  have free : ∀ field ∈ (build members id 0).fields, field.path ≠ "NAME" := fun field fieldMember =>
    (names_of_members field fieldMember).2
  exact ⟨member, spelled, free, spellings_find_the_first member spelled free⟩

/-- The name of the person comes first, so that it is found and not the column. -/
theorem name_of_person_is_found :
    (∀ field ∈ (build members id 0).fields, '.' ∉ field.name.toList ∧ field.path ≠ "NAME") ∧
      nameOfMember ∈ (build members id 0).properties ∧ Text.sameName nameOfMember.name "NAME" = true ∧
      ((build members id 0).lookUp? "NAME").map Field.index = some [0, 0] ∧
      (build members id 0).lookUp? "NAME" ≠ some nameOfMember := by
  have found : ((build members id 0).lookUp? "NAME").map Field.index = some [0, 0] := by
    simp only [lookUp?, named, winners_eq_insertionSort, build_eq_insertionSort]
    decide
  refine ⟨names_of_members, by simp [columns_of_members], by decide, found, ?_⟩
  intro same
  rw [same] at found
  exact absurd found (by decide)

end Codec

end SqlComposer
