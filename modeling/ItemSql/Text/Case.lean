/-!
# Letter case

Reserved words are recognised whatever their letter case, and two notions of case are at work. The
words of a statement are classed by their full lower case; once classed, they are compared by ASCII
case alone. The two differ at one character: the Kelvin sign is the only one beyond ASCII whose
lower case is an ASCII character, the letter `k`. So for the question whether the full lower case
of a word is a given ASCII word, it is enough to lower the ASCII letters and that one sign.
-/

namespace ItemSql.Text

/-- A text with its ASCII letters lowered. -/
def lowerAscii (text : String) : String :=
  String.ofList (text.toList.map Char.toLower)

/-- Lowers a character, as far as the result can be an ASCII character. -/
def foldChar (c : Char) : Char :=
  if c = '\u212a' then 'k' else c.toLower

/-- A text lowered as far as the result can be an ASCII text. -/
def foldCase (text : String) : String :=
  String.ofList (text.toList.map foldChar)

/-- Whether two texts differ at most in the case of ASCII letters. -/
def equalsIgnoringCase (a b : String) : Bool :=
  lowerAscii a == lowerAscii b

end ItemSql.Text
