set_option autoImplicit false

/-!
# Json: the magnitude of a number

A number is held as a significand of 64 bits and a power of ten.  The significand takes
the leading digits for as long as they fit; each digit behind them only adds to the
power.

A number is too large if it is infinite as a floating point number of 64 bits.  The
significand and the power are rounded to such numbers first, and then their product
is, so near the largest of these numbers the decision may differ from that for the
number as it is written.
-/

namespace MailSubmission.Json.Magnitude

/-- The number that a decimal digit stands for. -/
def digitValue (c : Char) : Nat := c.toNat - 48

/-! ## Significand and power -/

/-- The first number that a significand cannot hold. -/
def significandBound : Nat := Nat.pow 2 64

/-- The significand `n` with as many of the digits as it can hold behind it; also the digits
that are left. -/
def significandFrom (n : Nat) : List Char → Nat × List Char
  | [] => (n, [])
  | c :: cs =>
    if n * 10 + digitValue c < significandBound then significandFrom (n * 10 + digitValue c) cs
    else (n, c :: cs)

/-- The significand of a number written with these digits, and the digits it cannot hold. -/
def significand (digits : List Char) : Nat × List Char := significandFrom 0 digits

/-- The largest exponent that is told from larger ones.  No number has digits enough to
make up for it. -/
def exponentLimit : Nat := Nat.pow 2 31 - 1

/-- The exponent written with these digits. -/
def exponent (digits : List Char) : Nat :=
  digits.foldl (fun n c => min exponentLimit (n * 10 + digitValue c)) 0

/-! ## Floating point numbers -/

/-- The quotient rounded to the nearest natural number; halfway between two of them, to
the even one. -/
def nearestQuotient (a d : Nat) : Nat :=
  if 2 * (a % d) < d || (2 * (a % d) == d && a / d % 2 == 0) then a / d else a / d + 1

/-- The bits of a floating point number's significand. -/
def precision : Nat := 53

/-- A natural number rounded to the nearest floating point number of unbounded size. -/
def nearestFloat (n : Nat) : Nat :=
  let unit := Nat.pow 2 (n.log2 + 1 - precision)
  nearestQuotient n unit * unit

/-- The least number that is rounded to infinity: half a unit in the last place above
the largest floating point number. -/
def infinityBound : Nat := Nat.pow 2 1024 - Nat.pow 2 970

/-- The largest power of ten that is a floating point number. -/
def maxPower : Nat := 308

/-- The significand times a power of ten is infinite. -/
def overflows (significand : Nat) : Int → Bool
  | .ofNat power =>
    if power ≤ maxPower then
      nearestFloat significand * nearestFloat (Nat.pow 10 power) ≥ infinityBound
    else significand ≠ 0
  | .negSucc _ => false

end MailSubmission.Json.Magnitude
