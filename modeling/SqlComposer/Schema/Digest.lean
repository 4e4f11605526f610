import SqlComposer.Text.Digits

namespace SqlComposer.Schema

def digestStart : UInt64 := 0xcbf29ce484222325

def digestFactor : UInt64 := 0x100000001b3

def digestStep (digest : UInt64) (byte : UInt8) : UInt64 := (digest ^^^ byte.toUInt64) * digestFactor

def digest (bytes : List UInt8) : UInt64 := bytes.foldl digestStep digestStart

def digestText (digest : UInt64) : String := .ofList (Text.hexDigits 16 digest.toNat)

theorem digest_concat (front : List UInt8) (byte : UInt8) :
    digest (front ++ [byte]) = digestStep (digest front) byte := by simp [digest]

@[simp] theorem length_digestText (digest : UInt64) : (digestText digest).length = 16 := by
  simp [digestText]

theorem mem_digestText {digest : UInt64} {c : Char} (member : c ∈ (digestText digest).toList) :
    c ∈ "0123456789abcdef".toList := by
  rw [digestText, String.toList_ofList] at member
  exact Text.mem_hexDigits member

end SqlComposer.Schema
