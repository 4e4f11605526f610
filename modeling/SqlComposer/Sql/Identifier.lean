
namespace SqlComposer.Sql

def quoteMark : Char := '\x60'

def placeholder : String := "?"

def doubled (name : List Char) : List Char :=
  name.flatMap fun c => if c = quoteMark then [quoteMark, quoteMark] else [c]

def quote (name : String) : String := .ofList (quoteMark :: doubled name.toList ++ [quoteMark])

def quoteTable (database table : String) : String :=
  if database = "" then quote table else quote database ++ "." ++ quote table

@[simp] theorem doubled_nil : doubled [] = [] := rfl

theorem doubled_mark (name : List Char) : doubled (quoteMark :: name) = quoteMark :: quoteMark :: doubled name := by
  simp [doubled]

theorem doubled_plain {c : Char} (plain : c ≠ quoteMark) (name : List Char) :
    doubled (c :: name) = c :: doubled name := by
  simp [doubled, plain]

theorem toList_quote (name : String) :
    (quote name).toList = quoteMark :: doubled name.toList ++ [quoteMark] := by simp [quote]

end SqlComposer.Sql
