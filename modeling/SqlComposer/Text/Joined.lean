
namespace SqlComposer.Text

def joined (sep : String) : List String → String
  | [] => ""
  | [text] => text
  | text :: rest => text ++ sep ++ joined sep rest

@[simp] theorem joined_nil (sep : String) : joined sep [] = "" := rfl

@[simp] theorem joined_singleton (sep text : String) : joined sep [text] = text := rfl

@[simp] theorem joined_cons_cons (sep a b : String) (rest : List String) :
    joined sep (a :: b :: rest) = a ++ sep ++ joined sep (b :: rest) := rfl

end SqlComposer.Text
