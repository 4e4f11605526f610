
namespace SqlComposer.Schema

def doubledQuotes (text : List Char) : List Char :=
  text.flatMap fun c => if c = '\'' then ['\'', '\''] else [c]

def literal (text : String) : String := .ofList ('\'' :: doubledQuotes text.toList ++ ['\''])

end SqlComposer.Schema
