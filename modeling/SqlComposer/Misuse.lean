import SqlComposer.Record.Kind

namespace SqlComposer

inductive Misuse
  | emptyPair
  | emptyIndex
  | notARecord (kind : Kind) (typeName : String)
  | foreignRecord
deriving DecidableEq, Repr

def Misuse.message : Misuse → String
  | .emptyPair => "pair: at least one column is required"
  | .emptyIndex => "index: at least one column is required"
  | .notARecord kind typeName =>
    "mapper: expected a struct type, got " ++ kind.name ++ " (" ++ typeName ++ ")"
  | .foreignRecord => "record of another type than the columns"

end SqlComposer
