import SqlComposer.Record.Datum
import SqlComposer.Record.Mapper
import SqlComposer.Sql.Change

namespace SqlComposer.Codec

variable {n : Nat}

def valuesOf (catalog : Catalog n) (codec : Codec n) (type : Ty n) (value : Datum) :
    Except Misuse (List SqlValue) :=
  if type = .record codec.record then .ok (value.columnValues catalog codec.properties type)
  else .error .foreignRecord

def filled (codec : Codec n) (insert : Sql.Insert) : List (Field n) :=
  codec.properties.filter fun field => !insert.omitted.contains field.name

/-- Takes the columns from the codec and adds a row for each record. The columns are set even if a record is
of another type and ends the call. -/
def insertRecords (catalog : Catalog n) (codec : Codec n) (type : Ty n) (values : List Datum)
    (insert : Sql.Insert) : Sql.Insert × Except Misuse Unit :=
  let properties := codec.filled insert
  let insert := { insert with columns := properties.map (·.name) }
  if type = .record codec.record then
    let rows := values.map fun value => (value.columnValues catalog properties type).map Sql.Expr.value
    ({ insert with rows := insert.rows ++ rows }, .ok ())
  else if values.isEmpty then (insert, .ok ())
  else (insert, .error .foreignRecord)

end SqlComposer.Codec
