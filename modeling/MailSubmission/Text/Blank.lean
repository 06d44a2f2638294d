set_option autoImplicit false

/-!
# Text: white space

White space is the Unicode property of that name: twenty-five characters, of which
six are ASCII.  A text splits at it into words, and is trimmed of it at its ends.
-/

namespace MailSubmission.Text

/-- White space in the sense of Unicode. -/
def isBlank (c : Char) : Bool :=
  let n := c.toNat
  (9 ≤ n && n ≤ 13) || n == 0x20 || n == 0x85 || n == 0xA0 || n == 0x1680 ||
    (0x2000 ≤ n && n ≤ 0x200A) || n == 0x2028 || n == 0x2029 || n == 0x202F ||
    n == 0x205F || n == 0x3000

/-- The words of `cs`, where `word` holds, last character first, the word that the
text before `cs` ends with. -/
def wordsFrom : List Char → List Char → List (List Char)
  | [], [] => []
  | word, [] => [word.reverse]
  | word, c :: cs =>
    if isBlank c then
      match word with
      | [] => wordsFrom [] cs
      | _ => word.reverse :: wordsFrom [] cs
    else wordsFrom (c :: word) cs

/-- The words of a text: its longest pieces without white space. -/
def words (s : String) : List String :=
  (wordsFrom [] s.toList).map String.ofList

/-- The text without the white space it ends with. -/
def trimEnd (s : String) : String :=
  String.ofList (s.toList.reverse.dropWhile isBlank).reverse

/-- The text without the white space at either end. -/
def trim (s : String) : String :=
  String.ofList ((s.toList.dropWhile isBlank).reverse.dropWhile isBlank).reverse

/-- The text in which every ASCII letter is a capital. -/
def upper (s : String) : String := String.ofList (s.toList.map Char.toUpper)

end MailSubmission.Text
