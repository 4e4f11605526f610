import Mathlib.Algebra.GroupWithZero.Nat
import SqlComposer.Proofs.Schema.Alteration
import SqlComposer.Proofs.Schema.ColumnRules
import SqlComposer.Proofs.Schema.Generated
import SqlComposer.Schema.Index
/-!
How MySQL reads the literals of table definitions.

A literal doubles the quotes of its text, but a backslash is written as it is, and MySQL takes it for the begin of an
escape sequence. What is read is the text itself just where every backslash stands in front of a percent sign or an
underscore: `literals_are_read_back`.
-/

namespace SqlComposer.Schema

/-! ## Reading -/

/-- What an escape sequence stands for. In front of a character without a meaning of its own the backslash is dropped,
but for the two wildcards of patterns it is kept. -/
def escaped : Char → List Char
  | '0' => ['\x00']
  | 'b' => ['\x08']
  | 'n' => ['\n']
  | 'r' => ['\r']
  | 't' => ['\t']
  | 'Z' => ['\x1a']
  | '%' => ['\\', '%']
  | '_' => ['\\', '_']
  | c => [c]

def readBody? : List Char → Option (List Char × List Char)
  | [] => none
  | [c] => if c = '\'' then some ([], []) else none
  | c :: d :: cs =>
    if c = '\'' then
      if d = '\'' then (readBody? cs).map (Prod.map (['\''] ++ ·) id) else some ([], d :: cs)
    else if c = '\\' then (readBody? cs).map (Prod.map (escaped d ++ ·) id)
    else (readBody? (d :: cs)).map (Prod.map ([c] ++ ·) id)

def readLiteral? : List Char → Option (List Char × List Char)
  | '\'' :: cs => readBody? cs
  | _ => none

theorem readBody?_closing {rest : List Char} (apart : rest.head? ≠ some '\'') :
    readBody? ('\'' :: rest) = some ([], rest) := by
  cases rest with
  | nil => rfl
  | cons c rest =>
    have other : c ≠ '\'' := by simpa using apart
    simp [readBody?, other]

theorem readBody?_quote (cs : List Char) :
    readBody? ('\'' :: '\'' :: cs) = (readBody? cs).map (Prod.map (['\''] ++ ·) id) := by
  simp [readBody?]

theorem readBody?_backslash (c : Char) (cs : List Char) :
    readBody? ('\\' :: c :: cs) = (readBody? cs).map (Prod.map (escaped c ++ ·) id) := by
  simp [readBody?]

theorem readBody?_plain {c : Char} (noQuote : c ≠ '\'') (noBackslash : c ≠ '\\') (cs : List Char) :
    readBody? (c :: cs) = (readBody? cs).map (Prod.map ([c] ++ ·) id) := by
  cases cs <;> simp [readBody?, noQuote, noBackslash]

theorem readMore_eq_some_iff {cs first v rest : List Char} :
    (readBody? cs).map (Prod.map (first ++ ·) id) = some (v, rest) ↔
      ∃ w, readBody? cs = some (w, rest) ∧ v = first ++ w := by
  rw [Option.map_eq_some_iff]
  constructor
  · rintro ⟨⟨w, rest⟩, read, same⟩
    obtain ⟨rfl, rfl⟩ := Prod.mk.inj same
    exact ⟨w, read, rfl⟩
  · rintro ⟨w, read, rfl⟩
    exact ⟨_, read, rfl⟩

/-! ## What is read is no longer than what was written -/

def weight (cs : List Char) : Nat := (cs.map fun c => if c = '\'' then 1 else 2).sum

@[simp] theorem weight_nil : weight [] = 0 := rfl

@[simp] theorem weight_cons (c : Char) (cs : List Char) :
    weight (c :: cs) = (if c = '\'' then 1 else 2) + weight cs := by simp [weight]

@[simp] theorem weight_append (a b : List Char) : weight (a ++ b) = weight a + weight b := by simp [weight]

theorem weight_doubledQuotes (text : List Char) : weight (doubledQuotes text) = 2 * text.length := by
  induction text with
  | nil => rfl
  | cons c text ih =>
    have first : doubledQuotes (c :: text) = (if c = '\'' then ['\'', '\''] else [c]) ++ doubledQuotes text := rfl
    rw [first, weight_append, ih, List.length_cons, Nat.mul_add, Nat.add_comm]
    by_cases quote : c = '\'' <;> simp [quote]

theorem length_escaped_le (c : Char) : 2 * (escaped c).length ≤ 2 + weight [c] := by
  unfold escaped
  split <;> simp

theorem weight_le_of_readBody? {cs v rest : List Char} (read : readBody? cs = some (v, rest)) :
    2 * v.length + 1 + weight rest ≤ weight cs := by
  fun_induction readBody? cs generalizing v rest with
  | case1 => cases read
  | case2 =>
    obtain ⟨rfl, rfl⟩ := Prod.mk.inj (Option.some.inj read)
    simp
  | case3 => cases read
  | case4 cs ih =>
    obtain ⟨w, inner, rfl⟩ := readMore_eq_some_iff.mp read
    have shorter := ih inner
    have written : weight ('\'' :: '\'' :: cs) = 2 + weight cs := by simp [← Nat.add_assoc]
    rw [List.length_append, List.length_singleton, written]
    omega
  | case5 d cs =>
    obtain ⟨rfl, rfl⟩ := Prod.mk.inj (Option.some.inj read)
    simp
  | case6 d cs other ih =>
    obtain ⟨w, inner, rfl⟩ := readMore_eq_some_iff.mp read
    have shorter := ih inner
    have sequence := length_escaped_le d
    have written : weight ('\\' :: d :: cs) = 2 + weight [d] + weight cs := by simp [Nat.add_assoc]
    rw [List.length_append, written]
    omega
  | case7 c d cs other plain ih =>
    obtain ⟨w, inner, rfl⟩ := readMore_eq_some_iff.mp read
    have shorter := ih inner
    have written : weight (c :: d :: cs) = 2 + weight (d :: cs) := by rw [weight_cons, if_neg other]
    rw [List.length_append, List.length_singleton, written]
    omega

/-! ## Faithful texts -/

def EscapesNothing (text : List Char) : Prop :=
  ∀ before after, text = before ++ '\\' :: after → after.head? = some '%' ∨ after.head? = some '_'

theorem escapesNothing_nil : EscapesNothing [] := by
  rintro before after same
  simp at same

theorem escapesNothing_cons {c : Char} {text : List Char} :
    EscapesNothing (c :: text) ↔
      (c = '\\' → text.head? = some '%' ∨ text.head? = some '_') ∧ EscapesNothing text := by
  constructor
  · intro kept
    constructor
    · rintro rfl
      exact kept [] text rfl
    · rintro before after rfl
      exact kept (c :: before) after rfl
  · rintro ⟨first, kept⟩ before after same
    cases before with
    | nil =>
      obtain ⟨rfl, rfl⟩ := List.cons.inj same
      exact first rfl
    | cons d before => exact kept before after (List.cons.inj same).2

theorem eq_of_escaped {c : Char} {v text : List Char} (same : '\\' :: text = escaped c ++ v) :
    c = '%' ∨ c = '_' ∨ c = '\\' := by
  unfold escaped at same
  split at same <;> simp_all [eq_comm]

theorem doubledQuotes_cons {c : Char} (noQuote : c ≠ '\'') (text : List Char) :
    doubledQuotes (c :: text) = c :: doubledQuotes text := by
  simp [doubledQuotes, noQuote]

section Bodies

variable {rest : List Char}

theorem readBody?_ne_longer (text : List Char) (c : Char) :
    readBody? (doubledQuotes text ++ '\'' :: rest) ≠ some (c :: text, rest) := by
  intro read
  -- What was written would have to weigh two more than it does.
  have heavy := weight_le_of_readBody? read
  rw [weight_append, weight_doubledQuotes, weight_cons, if_pos rfl, List.length_cons] at heavy
  omega

def ReadsBack (rest text : List Char) : Prop := readBody? (doubledQuotes text ++ '\'' :: rest) = some (text, rest)

theorem readsBack_quote {text : List Char} : ReadsBack rest ('\'' :: text) ↔ ReadsBack rest text := by
  have written : doubledQuotes ('\'' :: text) ++ '\'' :: rest =
      '\'' :: '\'' :: (doubledQuotes text ++ '\'' :: rest) := rfl
  rw [ReadsBack, written, readBody?_quote, readMore_eq_some_iff]
  simp [ReadsBack]

theorem readsBack_plain {c : Char} (noQuote : c ≠ '\'') (noBackslash : c ≠ '\\') {text : List Char} :
    ReadsBack rest (c :: text) ↔ ReadsBack rest text := by
  rw [ReadsBack, doubledQuotes_cons noQuote, List.cons_append, readBody?_plain noQuote noBackslash,
    readMore_eq_some_iff]
  simp [ReadsBack]

theorem not_readsBack_of_quote {text : List Char} (swallowed : text.head? = none ∨ text.head? = some '\'') :
    ¬ ReadsBack rest ('\\' :: text) := by
  -- The backslash takes the next quote for its own, be it the closing one or one that should stand doubled.
  obtain ⟨cs, written⟩ : ∃ cs, doubledQuotes ('\\' :: text) ++ '\'' :: rest = '\\' :: '\'' :: cs := by
    cases text with
    | nil => exact ⟨rest, rfl⟩
    | cons c text =>
      obtain rfl : c = '\'' := by simpa using swallowed
      exact ⟨_, rfl⟩
  rw [ReadsBack, written, readBody?_backslash, readMore_eq_some_iff]
  simp [escaped]

theorem readsBack_backslash {c : Char} (noQuote : c ≠ '\'') {text : List Char} :
    ReadsBack rest ('\\' :: c :: text) ↔ (c = '%' ∨ c = '_') ∧ ReadsBack rest text := by
  have written : doubledQuotes ('\\' :: c :: text) ++ '\'' :: rest =
      '\\' :: c :: (doubledQuotes text ++ '\'' :: rest) := by
    rw [doubledQuotes_cons (by decide), doubledQuotes_cons noQuote]
    rfl
  rw [ReadsBack, written, readBody?_backslash, readMore_eq_some_iff]
  constructor
  · rintro ⟨w, read, same⟩
    rcases eq_of_escaped same with rfl | rfl | rfl
    · obtain rfl : text = w := by simpa [escaped] using same
      exact ⟨.inl rfl, read⟩
    · obtain rfl : text = w := by simpa [escaped] using same
      exact ⟨.inr rfl, read⟩
    · obtain rfl : '\\' :: text = w := by simpa [escaped] using same
      exact absurd read (readBody?_ne_longer text _)
  · rintro ⟨rfl | rfl, read⟩
    · exact ⟨text, read, rfl⟩
    · exact ⟨text, read, rfl⟩

theorem readsBack_cons_iff {c : Char} (noBackslash : c ≠ '\\') {text : List Char}
    (tail : ReadsBack rest text ↔ EscapesNothing text) :
    ReadsBack rest (c :: text) ↔ EscapesNothing (c :: text) := by
  rw [escapesNothing_cons, and_iff_right fun backslash => absurd backslash noBackslash, ← tail]
  by_cases quote : c = '\''
  · rw [quote, readsBack_quote]
  · exact readsBack_plain quote noBackslash

theorem readsBack_iff (apart : rest.head? ≠ some '\'') (text : List Char) :
    ReadsBack rest text ↔ EscapesNothing text := by
  have empty : ReadsBack rest [] ↔ EscapesNothing [] := iff_of_true (readBody?_closing apart) escapesNothing_nil
  -- An escape sequence takes two characters.
  induction text using List.twoStepInduction with
  | nil => exact empty
  | singleton c =>
    by_cases backslash : c = '\\'
    · subst backslash
      exact iff_of_false (not_readsBack_of_quote (.inl rfl)) (by simp [escapesNothing_cons])
    · exact readsBack_cons_iff backslash empty
  | cons_cons c d text ihText ihTail =>
    by_cases backslash : c = '\\'
    · subst backslash
      by_cases quote : d = '\''
      · subst quote
        exact iff_of_false (not_readsBack_of_quote (.inr rfl)) (by simp [escapesNothing_cons])
      · have tail : ReadsBack rest text ↔ EscapesNothing text := ihText
        rw [readsBack_backslash quote, tail, escapesNothing_cons, escapesNothing_cons]
        constructor
        · rintro ⟨wild, kept⟩
          refine ⟨fun _ => by simpa using wild, fun twice => ?_, kept⟩
          simp [twice] at wild
        · rintro ⟨wild, _, kept⟩
          exact ⟨by simpa using wild, kept⟩
    · exact readsBack_cons_iff backslash (ihTail d)

end Bodies

/-! ## Literals in statements -/

abbrev Apart (text : String) : Prop := text.toList.head? ≠ some '\''

theorem apart_append {a b : String} (first : Apart a) (second : Apart b) : Apart (a ++ b) := by
  rw [Apart, String.toList_append, List.head?_append]
  cases shown : a.toList.head? with
  | none => exact second
  | some c =>
    rw [Apart, shown] at first
    exact first

def Stands (v text : String) : Prop :=
  ∃ before rest, text.toList = before ++ (literal v).toList ++ rest ∧ rest.head? ≠ some '\''

theorem stands_literal (v : String) : Stands v (literal v) := ⟨[], [], by simp, nofun⟩

theorem Stands.within {v text : String} (stands : Stands v text) (before : String) {after : String}
    (apart : Apart after) : Stands v (before ++ (text ++ after)) := by
  obtain ⟨first, rest, shown, apartToo⟩ := stands
  refine ⟨before.toList ++ first, rest ++ after.toList, by simp [String.toList_append, shown], ?_⟩
  cases rest with
  | nil => exact apart
  | cons c rest => exact apartToo

theorem Stands.behind {v text : String} (stands : Stands v text) (before : String) : Stands v (before ++ text) := by
  have alone : Apart "" := nofun
  simpa using stands.within before alone

theorem Stands.joined {v text : String} {texts : List String} (stands : Stands v text) (member : text ∈ texts)
    (sep : String) (apart : ∀ more, Apart (sep ++ more)) : Stands v (Text.joined sep texts) := by
  induction texts with
  | nil => cases member
  | cons first texts ih =>
    cases texts with
    | nil =>
      obtain rfl := List.mem_singleton.mp member
      exact stands
    | cons second texts =>
      rw [Text.joined_cons_cons, String.append_assoc]
      rcases List.mem_cons.mp member with rfl | later
      · simpa using stands.within "" (apart _)
      · exact ((ih later).behind sep).behind first

theorem Stands.ne_empty {v text : String} (stands : Stands v text) : text ≠ "" := by
  rintro rfl
  obtain ⟨before, rest, shown, _⟩ := stands
  simp [literal] at shown

/-! ## Literals of columns -/

variable {n : Nat} {catalog : Catalog n} {config : Config} {codec : Codec n} {field root : Field n} {column : Column}

theorem stands_alternative {raw v : String} (member : v ∈ alternatives raw) :
    Stands v ("ENUM(" ++ Text.joined "," ((alternatives raw).map literal) ++ ")") := by
  have inside : Stands v (Text.joined "," ((alternatives raw).map literal)) :=
    (stands_literal v).joined (List.mem_map_of_mem member) "," fun more => by simp [String.toList_append]
  rw [String.append_assoc]
  exact inside.within "ENUM(" (by simp)

theorem exists_definition_eq (column : Column) :
    ∃ rest, column.definition = Sql.quote column.name ++ (" " ++ (column.sqlType ++ rest)) ∧ Apart rest := by
  simp only [Column.definition, String.append_assoc]
  refine ⟨_, rfl, ?_⟩
  refine apart_append ?_ (apart_append ?_ (apart_append ?_ (apart_append ?_ ?_)))
  all_goals split <;> simp [String.toList_append]

theorem stands_of_sqlType {v : String} (stands : Stands v column.sqlType) : Stands v column.definition := by
  obtain ⟨rest, shown, apart⟩ := exists_definition_eq column
  rw [shown]
  exact (stands.within " " apart).behind _

theorem stands_default {v : String} (text : column.hasLiteralDefault = true) (given : column.defaultValue = some v) :
    Stands v column.definition := by
  have stands : Stands v column.defaultText := by
    simp only [Column.defaultText, given, text, if_true, String.append_assoc]
    refine (stands_literal v).within " DEFAULT " ?_
    split <;> simp [String.toList_append]
  rw [Column.definition_eq]
  exact stands.behind _

theorem stands_path (root field : Field n) (name sqlType storage : String) :
    Stands ("$." ++ documentPath root field) (generatedText root field name sqlType storage) := by
  simp only [generatedText, String.append_assoc]
  iterate 6 refine Stands.behind ?_ _
  have apart : Apart (") " ++ storage) := by simp [String.toList_append]
  simpa using (stands_literal ("$." ++ documentPath root field)).within "" apart

theorem stands_of_generatedType {v : String} (name storage : String) (stands : Stands v column.sqlType) :
    Stands v (generatedText root field name column.sqlType storage) := by
  simp only [generatedText, String.append_assoc]
  exact (stands.within " " (by simp [String.toList_append])).behind _

theorem stands_comment (table : String) {index : Index} (named : index.kind ≠ .primary)
    (commented : index.comment ≠ "") : Stands index.comment (index.definition table) := by
  rw [Index.definition, if_neg named, if_neg commented]
  exact ((stands_literal index.comment).behind " COMMENT ").behind _

/-! ## Literals of tables -/

inductive IsQuoted (config : Config) (catalog : Catalog n) (codec : Codec n) : String → Prop
  | alternative {field : Field n} {column : Column} {raw v : String}
    (defined : field ∈ codec.properties ∨ field ∈ codec.fields ∧ (computedName? codec field).isSome)
    (made : (Builder.mysql config).column catalog field = .ok column) (enumerates : column.dataType = "ENUM")
    (given : field.tag.lookUp? "enum" = some raw) (member : v ∈ alternatives raw) : IsQuoted config catalog codec v
  | byDefault {field : Field n} {column : Column} {v : String} (member : field ∈ codec.properties)
    (made : (Builder.mysql config).column catalog field = .ok column) (text : column.hasLiteralDefault = true)
    (given : column.defaultValue = some v) : IsQuoted config catalog codec v
  | path {root field : Field n} (member : field ∈ codec.fields) (computed : (computedName? codec field).isSome)
    (rooted : codec.columnRoot? field = some root) : IsQuoted config catalog codec ("$." ++ documentPath root field)

theorem exists_computed {generated : List Definition}
    (made : generatedDefinitions (.mysql config) catalog codec = .ok generated) (member : field ∈ codec.fields)
    (computed : (computedName? codec field).isSome) (rooted : codec.columnRoot? field = some root) :
    ∃ definition ∈ generated, ∃ column storage, (Builder.mysql config).column catalog field = .ok column ∧
      definition.text = generatedText root field definition.name column.sqlType storage := by
  obtain ⟨outcomes, found, rfl⟩ := generatedDefinitions_eq_ok_iff.mp made
  obtain ⟨outcome, outcomeMember, shown⟩ := exists_of_mem_left found member
  rw [← name_generatedDefinition shown, Option.isSome_map] at computed
  obtain ⟨definition, rfl⟩ := Option.isSome_iff_exists.mp computed
  exact ⟨definition, List.reduceOption_mem_iff.mpr outcomeMember, generatedDefinition_eq_ok rooted shown⟩

theorem exists_root (computed : (computedName? codec field).isSome) : ∃ root, codec.columnRoot? field = some root := by
  unfold computedName? at computed
  split at computed
  · next rooted => exact ⟨_, rooted⟩
  · cases computed

theorem exists_stands {all : List Definition} (made : definitions (.mysql config) catalog codec = .ok all)
    {v : String} (quoted : IsQuoted config catalog codec v) : ∃ definition ∈ all, Stands v definition.text := by
  obtain ⟨columns, generated, found, computes, rfl⟩ := definitions_eq_ok_iff.mp made
  -- The column of a field of the record itself is defined by its own definition.
  have own {field : Field n} {column : Column} (member : field ∈ codec.properties)
      (made : (Builder.mysql config).column catalog field = .ok column) (stands : Stands v column.definition) :
      ∃ definition ∈ columns.map Column.asDefinition ++ generated, Stands v definition.text := by
    obtain ⟨other, otherMember, same⟩ := exists_of_mem_left found member
    obtain rfl := Except.ok.inj (same.symm.trans made)
    exact ⟨_, List.mem_append_left _ (List.mem_map_of_mem otherMember), stands⟩
  cases quoted with
  | @alternative field column raw _ defined made enumerates given member =>
    obtain ⟨rawToo, givenToo, shown, _⟩ := (keepsRules_of_column made).alternative enumerates
    obtain rfl := Option.some.inj (givenToo.symm.trans given)
    have stands : Stands v column.sqlType := shown ▸ stands_alternative member
    rcases defined with fieldMember | ⟨fieldMember, computed⟩
    · exact own fieldMember made (stands_of_sqlType stands)
    · obtain ⟨root, rooted⟩ := exists_root computed
      obtain ⟨definition, isDefined, columnToo, storage, madeToo, text⟩ :=
        exists_computed computes fieldMember computed rooted
      obtain rfl := Except.ok.inj (madeToo.symm.trans made)
      exact ⟨definition, List.mem_append_right _ isDefined, text ▸ stands_of_generatedType _ _ stands⟩
  | byDefault member made text given => exact own member made (stands_default text given)
  | path member computed rooted =>
    obtain ⟨definition, isDefined, column, storage, _, text⟩ := exists_computed computes member computed rooted
    exact ⟨definition, List.mem_append_right _ isDefined, text ▸ stands_path _ _ _ _ _⟩

theorem Stands.render {v text table : String} {definitions options : List String} (stands : Stands v text)
    (member : text ∈ definitions) : Stands v (TableText.render { table, definitions, options }) := by
  have filled : definitions.isEmpty = false := by
    rw [List.isEmpty_eq_false_iff]
    exact List.ne_nil_of_mem member
  have kept : text ∈ definitions.filter (· != "") := List.mem_filter.mpr ⟨member, by simpa using stands.ne_empty⟩
  have listed := stands.joined kept ", " fun more => by simp [String.toList_append]
  simp only [TableText.render, filled, Bool.false_eq_true, if_false, String.append_assoc]
  iterate 4 refine Stands.behind ?_ _
  refine listed.within " (" ?_
  split <;> simp [String.toList_append]

theorem exists_change (existing : List String) (before : Option String) {all : List Definition}
    {definition : Definition} (member : definition ∈ all) : ∃ change ∈ changes existing before all, ∃ first last,
      change.text = first ++ (definition.text ++ last) ∧ Apart last := by
  induction all generalizing before with
  | nil => cases member
  | cons other all ih =>
    rcases List.mem_cons.mp member with rfl | later
    · refine ⟨_, List.mem_cons_self, ?_⟩
      split
      · exact ⟨"MODIFY ", "", by simp [Change.text], nofun⟩
      · cases before with
        | none => exact ⟨"ADD ", " FIRST", String.append_assoc .., by simp⟩
        | some name =>
          refine ⟨"ADD ", " AFTER " ++ Sql.quote name, ?_, by simp [String.toList_append]⟩
          simp only [Change.text, String.append_assoc]
    · obtain ⟨change, changeMember, shown⟩ := ih (some other.name) later
      exact ⟨change, List.mem_cons_of_mem _ changeMember, shown⟩

def HoldsLiteral (v text : String) : Prop :=
  ∃ before rest, text.toList = before ++ (literal v).toList ++ rest ∧
    (readLiteral? ((literal v).toList ++ rest) = some (v.toList, rest) ↔ EscapesNothing v.toList)

theorem readLiteral?_literal_iff {v : String} {rest : List Char} (apart : rest.head? ≠ some '\'') :
    readLiteral? ((literal v).toList ++ rest) = some (v.toList, rest) ↔ EscapesNothing v.toList := by
  have written : (literal v).toList ++ rest = '\'' :: (doubledQuotes v.toList ++ '\'' :: rest) := by simp [literal]
  rw [written]
  exact readsBack_iff apart v.toList

theorem Stands.holds {v text : String} (stands : Stands v text) : HoldsLiteral v text := by
  obtain ⟨before, rest, shown, apart⟩ := stands
  exact ⟨before, rest, shown, readLiteral?_literal_iff apart⟩

structure ReadsLiterals (config : Config) (catalog : Catalog n) (codec : Codec n) : Prop where
  alone : ∀ (v : String) (rest : List Char), rest.head? ≠ some '\'' →
    (readLiteral? ((literal v).toList ++ rest) = some (v.toList, rest) ↔ EscapesNothing v.toList)
  created : ∀ database table key sql, createTable (.mysql config) catalog codec database table key = .ok sql →
    ∀ v, IsQuoted config catalog codec v → HoldsLiteral v sql
  altered : ∀ database table key hasKey existing sql,
    alterTable (.mysql config) catalog codec database table key hasKey existing = .ok sql →
      ∀ v, IsQuoted config catalog codec v → HoldsLiteral v sql
  indexed : ∀ table (index : Index), index.kind ≠ .primary → index.comment ≠ "" →
    HoldsLiteral index.comment (index.definition table)

theorem literals_are_read_back (config : Config) (catalog : Catalog n) (codec : Codec n) :
    ReadsLiterals config catalog codec where
  alone _ _ := readLiteral?_literal_iff
  created := by
    intro database table key sql created v quoted
    obtain ⟨all, made, _⟩ := bind_eq_ok_iff.mp created
    obtain ⟨definition, member, stands⟩ := exists_stands made quoted
    obtain ⟨more, shown⟩ := createTable_of_definitions made database table key
    obtain rfl := Except.ok.inj (shown.symm.trans created)
    exact (stands.render (List.mem_append_left _ (List.mem_map_of_mem member))).holds
  altered := by
    intro database table key hasKey existing sql altered v quoted
    obtain ⟨all, made, _⟩ := bind_eq_ok_iff.mp altered
    obtain ⟨definition, member, stands⟩ := exists_stands made quoted
    obtain rfl := Except.ok.inj ((alterTable_eq_ok made database table key hasKey existing).symm.trans altered)
    obtain ⟨change, changeMember, first, last, text, apart⟩ := exists_change existing none member
    have changed : Stands v change.text := text ▸ stands.within first apart
    have clause : change.text ∈ (changes existing none all).map Change.text ++ keyClauses codec key hasKey :=
      List.mem_append_left _ (List.mem_map_of_mem changeMember)
    exact ((changed.joined clause ", " fun more => by simp [String.toList_append]).behind _).holds
  indexed _ _ named commented := (stands_comment _ named commented).holds

theorem backslash_takes_the_quote :
    ({ name := "i", columns := [⟨"a", .ascending⟩], comment := "\\" } : Index).definition "\x60t\x60" =
        "CREATE INDEX \x60i\x60 ON \x60t\x60 (\x60a\x60) COMMENT '\\'" ∧
      readLiteral? (literal "\\").toList = none ∧
      readLiteral? (literal "\\' x").toList = some (['\''], [' ', 'x', '\'']) ∧
      readLiteral? (literal "a\\nb").toList = some (['a', '\n', 'b'], []) := by
  refine ⟨?_, ?_, ?_, ?_⟩
  all_goals decide

end SqlComposer.Schema
