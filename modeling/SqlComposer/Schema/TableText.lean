import SqlComposer.Text.Joined

namespace SqlComposer.Schema

structure TableText where
  temporary : Bool := false
  ifNotExists : Bool := false
  table : String
  definitions : List String := []
  options : List String := []
deriving DecidableEq, Repr

namespace TableText

def define (text : TableText) (definition : String) : TableText :=
  { text with definitions := text.definitions ++ [definition] }

def option (text : TableText) (option : String) : TableText :=
  { text with options := text.options ++ [option] }

def render (text : TableText) : String :=
  (if text.temporary then "CREATE TEMPORARY TABLE" else "CREATE TABLE") ++
  (if text.ifNotExists then " IF NOT EXISTS" else "") ++ " " ++ text.table ++
  (if text.definitions.isEmpty then ""
    else " (" ++ Text.joined ", " (text.definitions.filter (· != "")) ++ ")") ++
  (if text.options.isEmpty then "" else " " ++ Text.joined " " (text.options.filter (· != "")))

end TableText

end SqlComposer.Schema
