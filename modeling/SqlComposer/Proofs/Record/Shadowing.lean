import SqlComposer.Proofs.Record.Documents
import SqlComposer.Proofs.Record.Promotion
/-!
Which of several fields the document of a record shows under a key that they compete for.

A field of the record itself replaces what is there, what an embedded field brings along does not. So of the record's
own fields the last one is shown, and only if there is none, what the first of the embedded ones brings along.
-/

namespace SqlComposer

variable {n : Nat} {catalog : Catalog n}

section Records

variable {decls : List (FieldDecl n)} {values : List Datum} {entries : List (String × Json)} {key : String}
  {position : Nat} {entry : Json}

def PutsAt (catalog : Catalog n) (decls : List (FieldDecl n)) (values : List Datum) (key : String) (position : Nat)
    (entry : Json) : Prop :=
  ∃ decl part, decls[position]? = some decl ∧ values[position]? = some part ∧ decl.isKept = true ∧
    part.toJson catalog decl.type = entry ∧ decl.spreads entry = false ∧ decl.nameBy id = key

def BringsAt (catalog : Catalog n) (decls : List (FieldDecl n)) (values : List Datum) (key : String) (position : Nat)
    (entry : Json) : Prop :=
  ∃ decl part, decls[position]? = some decl ∧ values[position]? = some part ∧ decl.isKept = true ∧
    decl.spreads (part.toJson catalog decl.type) = true ∧ (part.toJson catalog decl.type).get? key = some entry

theorem lookup_recordJson_of_held (held : entries.lookup key = some entry)
    (noOwn : ∀ position other, ¬ PutsAt catalog decls values key position other) :
    (Datum.recordJson catalog decls values entries).lookup key = some entry := by
  induction decls generalizing values entries with
  | nil => rwa [Datum.recordJson]; simp
  | cons decl decls ih => cases values with
    | nil => rwa [Datum.recordJson]; simp
    | cons part values =>
      rw [Datum.recordJson]
      apply ih
      · rw [lookup_addTo_of_other, held, Option.some_or]
        exact fun kept own named => noOwn 0 _ ⟨decl, part, rfl, rfl, kept, rfl, own, named⟩
      · exact fun position => noOwn (position + 1)

theorem lookup_recordJson_of_last (puts : PutsAt catalog decls values key position entry)
    (last : ∀ later other, position < later → ¬ PutsAt catalog decls values key later other) :
    (Datum.recordJson catalog decls values entries).lookup key = some entry := by
  induction decls generalizing values entries position with
  | nil =>
    obtain ⟨_, _, declared, _⟩ := puts
    simp at declared
  | cons first decls ih => cases values with
    | nil =>
      obtain ⟨_, _, _, held, _⟩ := puts
      simp at held
    | cons top values =>
      have lastBelow (later : Nat) (other : Json) (after : position < later + 1) :
          ¬ PutsAt catalog decls values key later other := last (later + 1) other after
      rw [Datum.recordJson]
      cases position with
      | zero =>
        obtain ⟨decl, part, declared, held, kept, rfl, own, rfl⟩ := puts
        obtain rfl : first = decl := by simpa using declared
        obtain rfl : top = part := by simpa using held
        apply lookup_recordJson_of_held
        · simp [lookup_addTo_of_own kept own]
        · exact fun later other => lastBelow later other (Nat.succ_pos later)
      | succ position => exact ih puts fun later other after => lastBelow later other (Nat.succ_lt_succ after)

theorem lookup_recordJson_of_first (brings : BringsAt catalog decls values key position entry)
    (noOwn : ∀ position other, ¬ PutsAt catalog decls values key position other)
    (first : ∀ earlier other, earlier < position → ¬ BringsAt catalog decls values key earlier other)
    (free : entries.lookup key = none) :
    (Datum.recordJson catalog decls values entries).lookup key = some entry := by
  induction decls generalizing values entries position with
  | nil =>
    obtain ⟨_, _, declared, _⟩ := brings
    simp at declared
  | cons decl decls ih => cases values with
    | nil =>
      obtain ⟨_, _, _, held, _⟩ := brings
      simp at held
    | cons top values =>
      have noOwnBelow (position : Nat) (other : Json) : ¬ PutsAt catalog decls values key position other :=
        noOwn (position + 1) other
      have step : (decl.addTo (top.toJson catalog decl.type) entries).lookup key = _ :=
        lookup_addTo_of_other fun kept own named => noOwn 0 _ ⟨decl, top, rfl, rfl, kept, rfl, own, named⟩
      rw [free, Option.none_or] at step
      rw [Datum.recordJson]
      cases position with
      | zero =>
        obtain ⟨bringing, part, declared, held, kept, spreads, shown⟩ := brings
        obtain rfl : decl = bringing := by simpa using declared
        obtain rfl : top = part := by simpa using held
        apply lookup_recordJson_of_held _ noOwnBelow
        rw [step, if_pos ⟨kept, spreads⟩, shown]
      | succ position =>
        apply ih brings noOwnBelow
        · exact fun earlier other before => first (earlier + 1) other (Nat.succ_lt_succ before)
        · rw [step]
          by_contra adds
          obtain ⟨other, shown⟩ := Option.ne_none_iff_exists'.mp adds
          obtain ⟨⟨kept, spreads⟩, shown⟩ := Option.ite_none_right_eq_some.mp shown
          exact first 0 other (Nat.succ_pos position) ⟨decl, top, rfl, rfl, kept, spreads, shown⟩

theorem exists_of_lookup_recordJson (shown : (Datum.recordJson catalog decls values []).lookup key = some entry) :
    (∃ position other, PutsAt catalog decls values key position other) ∨
      ∃ position other, BringsAt catalog decls values key position other := by
  obtain ⟨position, decl, part, declared, held, adds⟩ := exists_adds shown
  have kept := isKept_of_adds adds
  cases spreads : decl.spreads (part.toJson catalog decl.type) with
  | false =>
    rw [entriesOf_of_own kept spreads] at adds
    exact .inl ⟨position, _, decl, part, declared, held, kept, rfl, spreads, nameBy_of_lookup adds⟩
  | true =>
    rw [lookup_entriesOf_of_spreads kept spreads] at adds
    obtain ⟨other, shown⟩ := Option.ne_none_iff_exists'.mp adds
    exact .inr ⟨position, other, decl, part, declared, held, kept, spreads, shown⟩

end Records

inductive Within (catalog : Catalog n) (P : FieldDecl n → Datum → Prop) : Fin n → List Datum → Prop
  | here {record : Fin n} {values : List Datum} {position : Nat} {decl part} :
      (catalog record).fields[position]? = some decl → decl.isKept = true → values[position]? = some part →
      P decl part → Within catalog P record values
  | deeper {record : Fin n} {values : List Datum} {position : Nat} {decl part inner inside} :
      (catalog record).fields[position]? = some decl → decl.isKept = true → values[position]? = some part →
      decl.promotes = true → decl.type.base.record? = some inner → part.content? = some (.record inside) →
      Within catalog P inner inside → Within catalog P record values

/-- An embedded record is absent and leaves an entry under its name. -/
def LeavesNull (catalog : Catalog n) (key : String) : Fin n → List Datum → Prop :=
  Within catalog fun decl part => decl.promotes = true ∧ part.content? = none ∧ decl.nameBy id = key

/-- An embedded field that is no record, but a map say, brings along the key. -/
def SpreadsKey (catalog : Catalog n) (key : String) : Fin n → List Datum → Prop :=
  Within catalog fun decl part => decl.type.base.record? = none ∧
    decl.spreads (part.toJson catalog decl.type) = true ∧ (part.toJson catalog decl.type).get? key ≠ none

inductive Overtaken (catalog : Catalog n) (key : String) : Fin n → List Datum → List Nat → Prop
  | here {record values earlier entry position next rest} :
      BringsAt catalog (catalog record).fields values key earlier entry → earlier < position →
      Overtaken catalog key record values (position :: next :: rest)
  | deeper {record : Fin n} {values : List Datum} {position : Nat} {decl part inner inside rest} :
      (catalog record).fields[position]? = some decl → values[position]? = some part →
      decl.type.base.record? = some inner → part.content? = some (.record inside) →
      Overtaken catalog key inner inside rest → Overtaken catalog key record values (position :: rest)

def OwnAt (catalog : Catalog n) (decls : List (FieldDecl n)) (values : List Datum) (key : String) (position : Nat)
    (entry : Json) : Prop :=
  PutsAt catalog decls values key position entry ∧ ∀ decl ∈ decls[position]?, decl.promotes = false

section Deep

variable {record inner : Fin n} {values : List Datum} {position : Nat} {decl : FieldDecl n} {key : String}
  {entry : Json}

theorem spreads_of_promotes (promoting : decl.promotes = true) {entries : List (String × Json)} :
    decl.spreads (.object entries) = true := by
  simp only [FieldDecl.promotes, Bool.and_eq_true, beq_iff_eq] at promoting
  simp [FieldDecl.spreads, promoting]

theorem promotes_of_spreads {document : Json} (spreads : decl.spreads document = true)
    (leads : decl.type.base.record? = some inner) : decl.promotes = true := by
  cases document with
  | object entries =>
    rw [promotes_iff leads]
    exact spreads
  | _ => cases spreads

theorem exists_record_of_promotes (promoting : decl.promotes = true) :
    ∃ inner, decl.type.base.record? = some inner := by
  simp only [FieldDecl.promotes, Bool.and_eq_true] at promoting
  exact Option.isSome_iff_exists.mp promoting.1.2

theorem ownAt_of_putsAt (fit : Datum.valuesFit catalog (catalog record).fields values = true)
    (whole : ¬ LeavesNull catalog key record values)
    (puts : PutsAt catalog (catalog record).fields values key position entry) :
    OwnAt catalog (catalog record).fields values key position entry := by
  refine ⟨puts, ?_⟩
  obtain ⟨decl, part, declared, held, kept, rfl, own, named⟩ := puts
  intro other declaredToo
  obtain rfl := Option.some.inj (declared.symm.trans declaredToo)
  by_contra promoting
  rw [Bool.not_eq_false] at promoting
  obtain ⟨inner, leads⟩ := exists_record_of_promotes promoting
  obtain ⟨_, heldToo, fits⟩ := Datum.valuesFit_getElem? fit declared
  obtain rfl := Option.some.inj (held.symm.trans heldToo)
  rcases Datum.opens_of_fits leads fits with missing | ⟨inside, opens⟩
  · exact whole (.here declared kept held ⟨promoting, missing, named⟩)
  · rw [opens.document, spreads_of_promotes promoting] at own
    cases own

end Deep

theorem Datum.sizeOf_content? : ∀ {value content : Datum}, value.content? = some content →
    sizeOf content ≤ sizeOf value
  | .present inner, _, shown => by
    rw [content?] at shown
    have := Datum.sizeOf_content? shown
    simp only [present.sizeOf_spec]
    omega
  | .bool _, _, rfl | .signed _, _, rfl | .unsigned _, _, rfl | .float _, _, rfl | .string _, _, rfl
  | .json _, _, rfl | .dateTime _, _, rfl | .date _, _, rfl | .list _, _, rfl | .map _, _, rfl
  | .record _, _, rfl => le_refl _

theorem Datum.sizeOf_inside {values inside : List Datum} {position : Nat} {part : Datum}
    (held : values[position]? = some part) (content : part.content? = some (.record inside)) :
    sizeOf inside < sizeOf values := by
  have outer := List.sizeOf_lt_of_mem (List.mem_of_getElem? held)
  have inner := Datum.sizeOf_content? content
  simp only [record.sizeOf_spec] at inner
  omega

theorem exists_name_of_lookup {root record : Fin n} (entered : Entered catalog root record) {values : List Datum}
    (fit : Datum.valuesFit catalog (catalog record).fields values = true) {key : String}
    (whole : ¬ LeavesNull catalog key record values) {entry : Json}
    (shown : (Datum.recordJson catalog (catalog record).fields values []).lookup key = some entry) :
    (∃ field ∈ (Codec.build catalog id root).fields, field.name = key ∧ field.promotes = false) ∨
      SpreadsKey catalog key record values := by
  -- A record type may hold itself any number of times, so the recursion is on the value and not on the types.
  rcases exists_of_lookup_recordJson shown with ⟨position, other, puts⟩ | ⟨position, other, brings⟩
  · obtain ⟨⟨decl, _, declared, _, kept, _, _, named⟩, own⟩ := ownAt_of_putsAt fit whole puts
    exact .inl (named ▸ Codec.exists_mem_of_entered id entered declared kept (own decl declared))
  · obtain ⟨decl, part, declared, held, kept, spreads, found⟩ := brings
    cases leads : decl.type.base.record? with
    | none => exact .inr (.here declared kept held ⟨leads, spreads, by simp [found]⟩)
    | some inner =>
      have promoting := promotes_of_spreads spreads leads
      obtain ⟨_, heldToo, fits⟩ := Datum.valuesFit_getElem? fit declared
      obtain rfl := Option.some.inj (held.symm.trans heldToo)
      rcases Datum.opens_of_fits leads fits with missing | ⟨inside, opens⟩
      · rw [Datum.toJson_of_absent missing] at found
        cases found
      · rw [opens.document] at found
        have smaller := Datum.sizeOf_inside held opens.content
        have wholeInside : ¬ LeavesNull catalog key inner inside := fun leaves =>
          whole (.deeper declared kept held promoting leads opens.content leaves)
        rcases exists_name_of_lookup (entered.step declared kept promoting leads) opens.valuesFit wholeInside found
          with named | spread
        · exact .inl named
        · exact .inr (.deeper declared kept held promoting leads opens.content spread)
termination_by sizeOf values

def Unbeaten (catalog : Catalog n) (chain : List (Fin n)) (record : Fin n) (key : String) (index : List Nat) : Prop :=
  ∀ other rival, Promoted catalog chain record other rival → rival.nameBy id = key →
    index.length < other.length ∨ index.length = other.length ∧ other ≤ index

section Resolved

variable {chain : List (Fin n)} {record : Fin n} {values : List Datum} {key : String}
  (fit : Datum.valuesFit catalog (catalog record).fields values = true)
  (whole : ¬ LeavesNull catalog key record values)

theorem Unbeaten.below {position : Nat} {rest : List Nat} {decl : FieldDecl n} {inner : Fin n}
    (unbeaten : Unbeaten catalog chain record key (position :: rest))
    (declared : (catalog record).fields[position]? = some decl) (kept : decl.isKept = true)
    (promoting : decl.promotes = true) (leads : decl.type.base.record? = some inner) (free : inner ∉ chain) :
    Unbeaten catalog (inner :: chain) inner key rest := by
  intro other rival promoted named
  have beats := unbeaten (position :: other) rival (.deeper declared kept promoting leads free promoted) named
  rw [List.length_cons, List.length_cons, Nat.succ_lt_succ_iff, Nat.succ_inj, ← not_lt] at beats
  refine beats.imp_right (And.imp_right fun before => not_lt.mp fun less => before ?_)
  exact List.cons_lt_cons_iff.mpr (.inr ⟨rfl, less⟩)

include fit whole

theorem Unbeaten.of_putsAt {index : List Nat} (unbeaten : Unbeaten catalog chain record key index)
    (proper : index ≠ []) {position : Nat} {entry : Json}
    (puts : PutsAt catalog (catalog record).fields values key position entry) :
    index.length = 1 ∧ [position] ≤ index := by
  obtain ⟨⟨rival, _, declared, _, kept, _, _, named⟩, own⟩ := ownAt_of_putsAt fit whole puts
  have beats := unbeaten [position] rival (.here declared kept (own rival declared)) named
  have := List.length_pos_iff.mpr proper
  rcases beats with less | same
  · simp only [List.length_singleton] at less
    omega
  · exact same

theorem Promoted.lookup_eq {index : List Nat} {target : FieldDecl n}
    (promoted : Promoted catalog chain record index target) (named : target.nameBy id = key)
    (unbeaten : Unbeaten catalog chain record key index) (ahead : ¬ Overtaken catalog key record values index)
    {part : Datum} (found : (Datum.record values).below? index = some part)
    (own : target.spreads (part.toJson catalog target.type) = false) :
    (Datum.recordJson catalog (catalog record).fields values []).lookup key =
      some (part.toJson catalog target.type) := by
  induction promoted generalizing values with
  | @here chain record position target declared kept _ =>
    have held : values[position]? = some part := by
      rw [Datum.below?_cons rfl] at found
      simpa [Datum.below?] using found
    apply lookup_recordJson_of_last ⟨target, part, declared, held, kept, rfl, own, named⟩
    intro later other after puts
    have before := (unbeaten.of_putsAt fit whole (List.cons_ne_nil _ _) puts).2
    exact not_lt.mpr before (List.cons_lt_cons_iff.mpr (.inl after))
  | @deeper chain record position decl inner rest target declared kept promoting leads free promoted ih =>
    have proper := promoted.occurs.ne_nil
    obtain ⟨top, held, fits⟩ := Datum.valuesFit_getElem? fit declared
    rw [Datum.below?_cons rfl, held, Option.bind_some] at found
    rcases Datum.opens_of_fits leads fits with missing | ⟨inside, opens⟩
    · rw [Datum.below?_of_absent missing proper] at found
      cases found
    · -- Inside, the field is the one shown; out here nothing keeps the embedded record from bringing it along.
      have wholeInside : ¬ LeavesNull catalog key inner inside := fun leaves =>
        whole (.deeper declared kept held promoting leads opens.content leaves)
      have shown := ih opens.valuesFit wholeInside named
        (unbeaten.below declared kept promoting leads free)
        (fun overtaken => ahead (.deeper declared held leads opens.content overtaken))
        (opens.below?_eq proper ▸ found) own
      have brings : BringsAt catalog (catalog record).fields values key position (part.toJson catalog target.type) := by
        refine ⟨decl, top, declared, held, kept, ?_, ?_⟩
        · rw [opens.document, spreads_of_promotes promoting]
        · rw [opens.document]
          exact shown
      apply lookup_recordJson_of_first brings _ _ List.lookup_nil
      · intro later other puts
        have level := (unbeaten.of_putsAt fit whole (List.cons_ne_nil _ _) puts).1
        exact proper (by simpa using level)
      · intro earlier other before brought
        obtain ⟨next, rest, rfl⟩ := List.exists_cons_of_ne_nil proper
        exact ahead (.here brought before)

end Resolved

namespace Codec

variable {record : Fin n}

theorem equivalence_samePath : Equivalence fun field other : Field n => samePath field other = true where
  refl field := beq_self_eq_true field.path
  symm same := by
    rw [samePath, beq_iff_eq] at same ⊢
    exact same.symm
  trans same sameToo := by
    rw [samePath, beq_iff_eq] at same sameToo ⊢
    exact same.trans sameToo

theorem mem_named_of_lookUp? {codec : Codec n} {path : String} {field : Field n}
    (found : codec.lookUp? path = some field) : field ∈ codec.named := by
  simp only [lookUp?] at found
  split at found
  · next field first =>
    obtain rfl := Option.some.inj found
    exact List.mem_of_find?_eq_some first
  · exact List.mem_of_find?_eq_some found

theorem unbeaten_of_lookUp? {key : String} {field : Field n}
    (found : (build catalog id record).lookUp? key = some field) (path : field.path = key)
    (candidate : (build catalog id record).IsCandidate field) :
    ∃ decl, Promoted catalog [record] record field.index decl ∧ decl.nameBy id = key ∧ field.type = decl.type ∧
      Unbeaten catalog [record] record key field.index := by
  obtain ⟨member, proper, own, outermost⟩ := candidate
  obtain ⟨decl, promoted, name, type⟩ := exists_promoted member own outermost
  have named : field.name = key := (path_of_promoted member promoted).symm.trans path
  refine ⟨decl, promoted, name.symm.trans named, type, ?_⟩
  intro other rival promotedToo namedToo
  obtain ⟨reached, reachedMember, rfl, reachedName, _, promotes⟩ := exists_mem_of_occurs id promotedToo.occurs
  have reachedNamed : reached.name = key := reachedName.trans namedToo
  have won := (mem_winners_iff equivalence_samePath ((ascending_fieldTree record).filter _)).mp
    (mem_named_of_lookUp? found)
  refine won.2 reached (List.mem_filter.mpr ⟨reachedMember, ?_⟩) ?_
  · simp [Field.isNamed, reachedNamed, ← named, proper, promotes.trans promotedToo.own]
  · simp [samePath, path, path_of_promoted reachedMember promotedToo, reachedNamed]

/-- The document shows under a key the last of the record's own fields of that name, otherwise what the first of the
embedded fields that have the key brings along. Nothing is said of the names of embedded records that are absent. -/
structure TakesEntries (catalog : Catalog n) (record : Fin n) (values : List Datum) (document : Json) : Prop where
  own : ∀ key position entry, ¬ LeavesNull catalog key record values →
    OwnAt catalog (catalog record).fields values key position entry →
    (∀ later other, position < later → ¬ OwnAt catalog (catalog record).fields values key later other) →
      document.get? key = some entry
  brought : ∀ key position entry, ¬ LeavesNull catalog key record values →
    (∀ place other, ¬ OwnAt catalog (catalog record).fields values key place other) →
    BringsAt catalog (catalog record).fields values key position entry →
    (∀ earlier other, earlier < position → ¬ BringsAt catalog (catalog record).fields values key earlier other) →
      document.get? key = some entry
  sources : ∀ key, ¬ LeavesNull catalog key record values → document.get? key ≠ none →
    (∃ position entry, OwnAt catalog (catalog record).fields values key position entry) ∨
      ∃ position entry, BringsAt catalog (catalog record).fields values key position entry
  resolved : ∀ key field part, ¬ LeavesNull catalog key record values →
    (build catalog id record).lookUp? key = some field → field.path = key →
    (build catalog id record).IsCandidate field → (Datum.record values).below? field.index = some part →
    (∀ decl ∈ (route catalog record field.index).getLast?, decl.spreads (part.toJson catalog decl.type) = false) →
    ¬ Overtaken catalog key record values field.index →
      document.get? key = some (part.toJson catalog field.type)
  keys : ∀ key, ¬ LeavesNull catalog key record values → document.get? key ≠ none →
    (∃ field ∈ (build catalog id record).fields, field.name = key ∧ field.promotes = false) ∨
      SpreadsKey catalog key record values

theorem documents_take_entries {type : Ty n} (leads : type.base.record? = some record) {value : Datum}
    (fits : value.fits catalog type = true) {values : List Datum} (content : value.content? = some (.record values)) :
    TakesEntries catalog record values (value.toJson catalog type) := by
  rcases Datum.opens_of_fits leads fits with missing | ⟨_, opens⟩
  · rw [missing] at content
    cases content
  obtain ⟨rfl⟩ := Datum.record.inj (Option.some.inj (opens.content.symm.trans content))
  have fit := opens.valuesFit
  rw [opens.document]
  constructor
  · intro key position entry whole own last
    exact lookup_recordJson_of_last own.1 fun later other after puts =>
      last later other after (ownAt_of_putsAt fit whole puts)
  · intro key position entry whole noOwn brings first
    exact lookup_recordJson_of_first brings (fun place other puts => noOwn place other (ownAt_of_putsAt fit whole puts))
      first List.lookup_nil
  · intro key whole held
    obtain ⟨entry, shown⟩ := Option.ne_none_iff_exists'.mp held
    refine (exists_of_lookup_recordJson shown).imp_left ?_
    rintro ⟨position, other, puts⟩
    exact ⟨position, other, ownAt_of_putsAt fit whole puts⟩
  · intro key field part whole found path candidate reached own ahead
    obtain ⟨decl, promoted, named, type, unbeaten⟩ := unbeaten_of_lookUp? found path candidate
    have last : (route catalog record field.index).getLast? = some decl := by
      rw [promoted.occurs.route_eq, List.getLast?_concat]
    rw [type]
    exact promoted.lookup_eq fit whole named unbeaten ahead reached (own decl last)
  · intro key whole held
    obtain ⟨entry, shown⟩ := Option.ne_none_iff_exists'.mp held
    exact exists_name_of_lookup (entered_root record) fit whole shown

def trips : Catalog 4
  | 0 => ⟨"Trip",
    [{ name := "driver", type := .record 1, embedded := true },
     { name := "guide", type := .record 2, embedded := true },
     { name := "car", type := .option (.record 3), embedded := true }]⟩
  | 1 => ⟨"Driver", [{ name := "id", type := .scalar (.signed .w64) }, { name := "name", type := .scalar .string }]⟩
  | 2 => ⟨"Guide", [{ name := "name", type := .scalar .string }, { name := "city", type := .scalar .string }]⟩
  | 3 => ⟨"Car", [{ name := "plate", type := .scalar .string }]⟩

def trip : List Datum := [.record [.signed 1, .string "Ann"], .record [.string "Bea", .string "Ulm"], .absent]

theorem trip_takes_entries :
    (Ty.record 0 : Ty 4).base.record? = some 0 ∧ (Datum.record trip).fits trips (.record 0) = true ∧
      (Datum.record trip).content? = some (.record trip) ∧
      TakesEntries trips 0 trip ((Datum.record trip).toJson trips (.record 0)) := by
  have leads : (Ty.record 0 : Ty 4).base.record? = some 0 := rfl
  have fits : (Datum.record trip).fits trips (.record 0) = true := by decide
  have content : (Datum.record trip).content? = some (.record trip) := rfl
  exact ⟨leads, fits, content, documents_take_entries leads fits content⟩

theorem name_of_driver_is_shown :
    ((build trips id 0).lookUp? "name").map Field.index = some [1, 0] ∧
      ((build trips id 0).lookUp? "name").map Field.promotes = some false ∧
      (Datum.record trip).fits trips (.record 0) = true ∧
      ((Datum.record trip).below? [1, 0]).map (Datum.toJson trips (.scalar .string)) = some (.string "Bea") ∧
      ((Datum.record trip).toJson trips (.record 0)).get? "name" = some (.string "Ann") ∧
      Json.string "Ann" ≠ .string "Bea" := by
  have found : ((build trips id 0).lookUp? "name").map (fun field => (field.index, field.promotes)) =
      some ([1, 0], false) := by
    simp only [lookUp?, named, winners_eq_insertionSort, build_eq_insertionSort]
    decide
  refine ⟨?_, ?_, by decide, by rfl, by rfl, by simp⟩
  · simpa using congrArg (Option.map Prod.fst) found
  · simpa using congrArg (Option.map Prod.snd) found

end Codec

end SqlComposer
