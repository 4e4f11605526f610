
namespace SqlComposer.Text

def padded (width n : Nat) : String :=
  let digits := n.repr
  .ofList (List.replicate (width - digits.length) '0') ++ digits

def hexDigit (n : Nat) : Char := if n < 10 then Char.ofNat (48 + n) else Char.ofNat (87 + n)

def hexDigits : (width : Nat) → Nat → List Char
  | 0, _ => []
  | width + 1, n => hexDigits width (n / 16) ++ [hexDigit (n % 16)]

@[simp] theorem length_hexDigits (width n : Nat) : (hexDigits width n).length = width := by
  induction width generalizing n with
  | zero => rfl
  | succ width ih => simp [hexDigits, ih]

theorem mem_hexDigits {width n : Nat} {c : Char} (member : c ∈ hexDigits width n) :
    c ∈ "0123456789abcdef".toList := by
  have digit : ∀ d < 16, hexDigit d ∈ "0123456789abcdef".toList := by decide
  induction width generalizing n with
  | zero => cases member
  | succ width ih =>
    rw [hexDigits, List.mem_append, List.mem_singleton] at member
    rcases member with front | rfl
    · exact ih front
    · exact digit _ (Nat.mod_lt n (by decide))

def hex (n : Nat) : String := .ofList (Nat.toDigits 16 n)

def decimalValue (digits : List Char) : Nat :=
  digits.foldl (fun value c => 10 * value + (c.toNat - 48)) 0

def readUnsigned? (limit : Nat) (text : String) : Option Nat :=
  let digits := match text.toList with
    | '+' :: rest => rest
    | cs => cs
  if digits.isEmpty || !digits.all Char.isDigit then none
  else
    let value := decimalValue digits
    if value < limit then some value else none

end SqlComposer.Text
