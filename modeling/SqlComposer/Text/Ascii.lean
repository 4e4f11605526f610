
namespace SqlComposer.Text

def lowerAscii (text : String) : String := .ofList (text.toList.map Char.toLower)

def upperAscii (text : String) : String := .ofList (text.toList.map Char.toUpper)

def sameName (a b : String) : Bool := lowerAscii a == lowerAscii b

@[simp] theorem sameName_refl (a : String) : sameName a a = true := by simp [sameName]

theorem sameName_iff {a b : String} : sameName a b = true ↔ lowerAscii a = lowerAscii b := by
  simp [sameName]

theorem sameName_comm (a b : String) : sameName a b = sameName b a := by
  simp [sameName, Bool.beq_comm]

theorem sameName_trans {a b c : String} (ab : sameName a b = true) (bc : sameName b c = true) :
    sameName a c = true := by
  rw [sameName_iff] at *
  exact ab.trans bc

end SqlComposer.Text
