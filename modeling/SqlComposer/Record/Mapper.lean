import SqlComposer.Misuse
import SqlComposer.Record.Codec

namespace SqlComposer

variable {n : Nat}

structure Mapper (n : Nat) where
  naming : String → String := id
  cache : List (Fin n × Codec n) := []

namespace Mapper

def rootOf (catalog : Catalog n) (type : Ty n) : Except Misuse (Fin n) :=
  match type.base.record? with
  | some record => .ok record
  | none => .error (.notARecord type.base.kind (type.base.name catalog))

def codecOf (catalog : Catalog n) (mapper : Mapper n) (type : Ty n) : Except Misuse (Codec n) × Mapper n :=
  match rootOf catalog type with
  | .error misuse => (.error misuse, mapper)
  | .ok record => match mapper.cache.lookup record with
    | some codec => (.ok codec, mapper)
    | none =>
      let codec := Codec.build catalog mapper.naming record
      (.ok codec, { mapper with cache := (record, codec) :: mapper.cache })

end Mapper

end SqlComposer
