import SqlComposer.Schema.Index
import SqlComposer.Value

namespace SqlComposer.Schema

open Sql

def createIndexes (database table : String) (indexes : List Index) : List String :=
  indexes.map (Index.definition (quoteTable database table))

def dropIndex (database table name : String) : String :=
  "DROP INDEX " ++ quote name ++ " ON " ++ quoteTable database table

def dropTable (database table : String) (ifExists : Bool) : String :=
  "DROP TABLE " ++ (if ifExists then "IF EXISTS " else "") ++ quoteTable database table

def truncateTable (database table : String) : String := "TRUNCATE TABLE " ++ quoteTable database table

def renameTable (database old new : String) : String :=
  "RENAME TABLE " ++ quoteTable database old ++ " TO " ++ quoteTable database new

def renameColumn (database table old new : String) : String :=
  "ALTER TABLE " ++ quoteTable database table ++ " RENAME COLUMN " ++ quote old ++ " TO " ++ quote new

def dropColumn (database table column : String) : String :=
  "ALTER TABLE " ++ quoteTable database table ++ " DROP COLUMN " ++ quote column

def databaseFilter (database : String) : String × List SqlValue :=
  if database = "" then ("TABLE_SCHEMA = DATABASE()", [])
  else ("TABLE_SCHEMA = ?", [.string database])

def tableQuery (database table : String) : String × List SqlValue :=
  let (filter, values) := databaseFilter database
  ("SELECT COUNT(*) FROM information_schema.TABLES WHERE " ++ filter ++
    " AND TABLE_NAME = ? AND TABLE_TYPE = ?", values ++ [.string table, .string "BASE TABLE"])

def columnsQuery (database table : String) : String × List SqlValue :=
  let (filter, values) := databaseFilter database
  ("SELECT ORDINAL_POSITION, COLUMN_NAME, COLUMN_TYPE, COLUMN_DEFAULT, IS_NULLABLE, DATA_TYPE, " ++
    "CHARACTER_SET_NAME, COLLATION_NAME, EXTRA FROM information_schema.COLUMNS WHERE " ++ filter ++
    " AND TABLE_NAME = ? ORDER BY ORDINAL_POSITION", values ++ [.string table])

def indexesQuery (database table : String) : String × List SqlValue :=
  let (filter, values) := databaseFilter database
  ("SELECT DISTINCT INDEX_NAME, INDEX_TYPE, NON_UNIQUE FROM information_schema.STATISTICS WHERE " ++ filter ++
    " AND TABLE_NAME = ?", values ++ [.string table])

end SqlComposer.Schema
