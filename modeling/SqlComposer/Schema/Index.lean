import SqlComposer.Misuse
import SqlComposer.Schema.Digest
import SqlComposer.Schema.Literal
import SqlComposer.Sql.Expr
import SqlComposer.Sql.Identifier
import SqlComposer.Text.Joined

namespace SqlComposer.Schema

open Sql

inductive IndexKind
  | btree | unique | primary | fullText | spatial
deriving DecidableEq, Repr

def IndexKind.text : IndexKind → String
  | .btree => "BTREE"
  | .unique => "UNIQUE"
  | .primary => "PRIMARY"
  | .fullText => "FULLTEXT"
  | .spatial => "SPATIAL"

structure IndexColumn where
  name : String
  order : Order := .ascending
deriving DecidableEq, Repr

structure Index where
  name : String := ""
  kind : IndexKind := .btree
  columns : List IndexColumn
  comment : String := ""
deriving DecidableEq, Repr

def bytesOf (text : String) : List UInt8 := text.toUTF8.data.toList

theorem bytesOf_append (a b : String) : bytesOf (a ++ b) = bytesOf a ++ bytesOf b := by simp [bytesOf]

theorem bytesOf_inj {a b : String} : bytesOf a = bytesOf b ↔ a = b := by
  simp [bytesOf, ← String.toByteArray_inj, ByteArray.ext_iff, Array.toList_inj]

def IndexColumn.digestInput (column : IndexColumn) : List UInt8 :=
  bytesOf "|" ++ bytesOf column.name ++ bytesOf (match column.order with
    | .ascending => "@ASC"
    | .descending => "@DESC")

namespace Index

def ofColumns (kind : IndexKind) (columns : List IndexColumn) : Except Misuse Index :=
  if columns.isEmpty then .error .emptyIndex else .ok { kind, columns }

def digestInput (index : Index) : List UInt8 :=
  bytesOf index.kind.text ++ index.columns.flatMap IndexColumn.digestInput

def digestName (index : Index) : String := digestText (digest index.digestInput)

def effectiveName (index : Index) : String := if index.name = "" then index.digestName else index.name

def columnText (column : IndexColumn) : String :=
  match column.order with
  | .ascending => quote column.name
  | .descending => quote column.name ++ " DESC"

def creation : IndexKind → String
  | .unique => "CREATE UNIQUE INDEX"
  | .fullText => "CREATE FULLTEXT INDEX"
  | .spatial => "CREATE SPATIAL INDEX"
  | .btree | .primary => "CREATE INDEX"

def definition (table : String) (index : Index) : String :=
  let columns := Text.joined "," (index.columns.map columnText)
  if index.kind = .primary then "ALTER TABLE " ++ table ++ " ADD PRIMARY KEY (" ++ columns ++ ")"
  else creation index.kind ++ " " ++ quote index.effectiveName ++ " ON " ++ table ++ " (" ++ columns ++ ")" ++
    (if index.comment = "" then "" else " COMMENT " ++ literal index.comment)

end Index

end SqlComposer.Schema
