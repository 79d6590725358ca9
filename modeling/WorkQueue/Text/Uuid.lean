/-!
# Random identifiers

Tasks without an id of their own get a random universally unique identifier of version 4: 128
random bits, of which six are overwritten by the version and the variant, written as 32 hexadecimal
digits in five groups.
-/

namespace WorkQueue.Text.Uuid

/-- The hexadecimal digits of `n`, padded with zeros to `width`. -/
def hex (width n : Nat) : List Char :=
  let digits := Nat.toDigits 16 (n % Nat.pow 16 width)
  List.replicate (width - digits.length) '0' ++ digits

/-- The identifier made of two random words. -/
def ofWords (high low : UInt64) : String :=
  let high := high.toNat
  let low := low.toNat
  String.ofList <|
    hex 8 (high / Nat.pow 2 32) ++ '-' :: hex 4 (high / Nat.pow 2 16) ++ '-' :: '4' :: hex 3 high ++
      '-' :: hex 4 (Nat.pow 2 15 + low / Nat.pow 2 48 % Nat.pow 2 14) ++ '-' :: hex 12 low

end WorkQueue.Text.Uuid
