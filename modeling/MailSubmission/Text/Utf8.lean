set_option autoImplicit false

/-!
# Text: UTF-8

Text travels as octets.  `encode` writes a text, `decode?` reads octets that are
exactly a text, and `decodeLossy` reads any octets at all: every longest piece
that could still have begun a character, and every octet that cannot begin one,
becomes one replacement character.
-/

namespace MailSubmission.Text.Utf8

/-- The octets of a text. -/
def encode (s : String) : List UInt8 :=
  s.toList.flatMap String.utf8EncodeChar

/-- What stands where octets are no character: U+FFFD. -/
def replacement : Char := '\uFFFD'

/-- A continuation octet, `80` to `BF`. -/
def isTail (b : UInt8) : Bool := 0x80 ≤ b && b ≤ 0xBF

/-- The second octets that may follow the first octet `a` of a character of three
or four octets.  The narrower ranges shut out overlong forms, surrogates and
numbers above U+10FFFF. -/
def secondAllowed (a b : UInt8) : Bool :=
  if a = 0xE0 then 0xA0 ≤ b && b ≤ 0xBF
  else if a = 0xED then 0x80 ≤ b && b ≤ 0x9F
  else if a = 0xF0 then 0x90 ≤ b && b ≤ 0xBF
  else if a = 0xF4 then 0x80 ≤ b && b ≤ 0x8F
  else isTail b

/-- How many octets a character takes that begins with `a`; none if no character
does. -/
def width (a : UInt8) : Nat :=
  if a < 0x80 then 1
  else if 0xC2 ≤ a && a ≤ 0xDF then 2
  else if 0xE0 ≤ a && a ≤ 0xEF then 3
  else if 0xF0 ≤ a && a ≤ 0xF4 then 4
  else 0

/-- The six payload bits of a continuation octet. -/
def payload (b : UInt8) : Nat := b.toNat % 64

/-- The characters of some octets; `none` marks a piece that is no character. -/
def pieces : List UInt8 → List (Option Char)
  | [] => []
  | a :: r₁ =>
    match width a with
    | 1 => some (Char.ofNat a.toNat) :: pieces r₁
    | 2 =>
      match r₁ with
      | [] => [none]
      | b :: r₂ =>
        if isTail b then some (Char.ofNat (a.toNat % 32 * 64 + payload b)) :: pieces r₂
        else none :: pieces (b :: r₂)
    | 3 =>
      match r₁ with
      | [] => [none]
      | [b] => if secondAllowed a b then [none] else none :: pieces [b]
      | b :: c :: r₃ =>
        if secondAllowed a b then
          if isTail c then
            some (Char.ofNat ((a.toNat % 16 * 64 + payload b) * 64 + payload c)) :: pieces r₃
          else none :: pieces (c :: r₃)
        else none :: pieces (b :: c :: r₃)
    | 4 =>
      match r₁ with
      | [] => [none]
      | [b] => if secondAllowed a b then [none] else none :: pieces [b]
      | [b, c] =>
        if secondAllowed a b then
          if isTail c then [none] else none :: pieces [c]
        else none :: pieces [b, c]
      | b :: c :: d :: r₄ =>
        if secondAllowed a b then
          if isTail c then
            if isTail d then
              some (Char.ofNat
                (((a.toNat % 8 * 64 + payload b) * 64 + payload c) * 64 + payload d)) :: pieces r₄
            else none :: pieces (d :: r₄)
          else none :: pieces (c :: d :: r₄)
        else none :: pieces (b :: c :: d :: r₄)
    | _ => none :: pieces r₁

/-- The text of any octets, with a replacement character for each piece that is no
character. -/
def decodeLossy (bytes : List UInt8) : String :=
  String.ofList ((pieces bytes).map (·.getD replacement))

/-- The text of octets that are exactly one. -/
def decode? (bytes : List UInt8) : Option String :=
  ((pieces bytes).mapM id).map String.ofList

end MailSubmission.Text.Utf8
