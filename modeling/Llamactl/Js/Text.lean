import Mathlib.Logic.Basic

namespace js

/-- The white space and line terminators that `String.prototype.trim` takes off. -/
def isTrimmed (c : Char) : Bool :=
  c.toNat ∈ [0x09, 0x0A, 0x0B, 0x0C, 0x0D, 0x20, 0xA0, 0x1680, 0x2028, 0x2029, 0x202F, 0x205F, 0x3000, 0xFEFF] ||
    (0x2000 ≤ c.toNat && c.toNat ≤ 0x200A)

def trim (text : String) : String :=
  String.ofList (((text.toList.dropWhile isTrimmed).reverse.dropWhile isTrimmed).reverse)

/-- A text of UTF-16 units that `trim` leaves nothing of; half a surrogate pair is not taken off. -/
def isBlank (text : List Nat) : Bool := text.all fun unit => isTrimmed (Char.ofNat unit)

/-- `text.trim()` on UTF-16 units -/
def trimUnits (text : List Nat) : List Nat :=
  let blank := fun unit => isTrimmed (Char.ofNat unit)
  ((text.dropWhile blank).reverse.dropWhile blank).reverse

/-- `basename` of a path: what follows the last slash, trailing slashes apart. -/
def basename (path : String) : String :=
  String.ofList (((path.toList.reverse.dropWhile (· = '/')).takeWhile (· ≠ '/')).reverse)

example : basename "org/model.gguf/" = "model.gguf" ∧ trim "\t mini \n" = "mini" := by decide +kernel

end js
