import SqlComposer.Binary64

namespace SqlComposer

inductive Json
  | null
  | bool (b : Bool)
  | int (n : Int)
  | float (x : Binary64)
  | string (text : String)
  | array (items : List Json)
  | object (entries : List (String × Json))
deriving Inhabited

namespace Json

def put (key : String) (value : Json) : List (String × Json) → List (String × Json)
  | [] => [(key, value)]
  | (k, v) :: entries =>
    if key < k then (key, value) :: (k, v) :: entries
    else if key = k then (key, value) :: entries
    else (k, v) :: put key value entries

def putNew (key : String) (value : Json) (entries : List (String × Json)) : List (String × Json) :=
  if (entries.lookup key).isSome then entries else put key value entries

def ofEntries (entries : List (String × Json)) : Json :=
  .object (entries.foldl (fun object (key, value) => put key value object) [])

def get? (key : String) : Json → Option Json
  | .object entries => entries.lookup key
  | _ => none

def ofBinary64 (x : Binary64) : Json := if x.isFinite then .float x else .null

mutual

def same : Json → Json → Bool
  | .null, .null => true
  | .bool a, .bool b => a == b
  | .int a, .int b => a == b
  | .float a, .float b => a.same b
  | .string a, .string b => a == b
  | .array as, .array bs => sameItems as bs
  | .object as, .object bs => sameEntries as bs
  | _, _ => false

def sameItems : List Json → List Json → Bool
  | [], [] => true
  | a :: as, b :: bs => same a b && sameItems as bs
  | _, _ => false

def sameEntries : List (String × Json) → List (String × Json) → Bool
  | [], [] => true
  | a :: as, b :: bs => sameEntry a b && sameEntries as bs
  | _, _ => false

def sameEntry : String × Json → String × Json → Bool
  | (k, v), (l, w) => k == l && same v w

end

theorem lookup_put_self (key : String) (value : Json) (entries : List (String × Json)) :
    (put key value entries).lookup key = some value := by
  induction entries with
  | nil => simp [put]
  | cons entry entries ih =>
    obtain ⟨k, v⟩ := entry
    rw [put]
    split
    · simp
    · split
      · simp
      · next different => simp [List.lookup_cons, beq_eq_false_iff_ne.2 different, ih]

theorem lookup_put_of_ne {key other : String} (different : other ≠ key) (value : Json)
    (entries : List (String × Json)) :
    (put key value entries).lookup other = entries.lookup other := by
  have unequal := beq_eq_false_iff_ne.2 different
  induction entries with
  | nil => simp [put, List.lookup_cons, unequal]
  | cons entry entries ih =>
    obtain ⟨k, v⟩ := entry
    rw [put]
    split
    · simp [List.lookup_cons, unequal]
    · split
      · next equal => subst equal; simp [List.lookup_cons, unequal]
      · simp [List.lookup_cons, ih]

end Json

end SqlComposer
