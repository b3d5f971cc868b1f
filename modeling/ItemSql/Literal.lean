/-!
# String literals

A string literal stands between quotes, single or double. Inside, a backslash before a quote or a
backslash makes it part of the text; before anything else a backslash is part of the text itself.
Literals that are written here use double quotes, and a backslash before each double quote and each
backslash of the text.
-/

namespace ItemSql.Literal

/-- The characters of a text inside double quotes. -/
def escape : List Char → List Char
  | [] => []
  | c :: cs => if c = '"' ∨ c = '\\' then '\\' :: c :: escape cs else c :: escape cs

/-- The literal of a text, in double quotes. -/
def quote (text : String) : String :=
  String.ofList ('"' :: escape text.toList ++ ['"'])

/-- The text that stands for the characters between the quotes. -/
def unescape : List Char → List Char
  | [] => []
  | '\\' :: '"' :: cs => '"' :: unescape cs
  | '\\' :: '\'' :: cs => '\'' :: unescape cs
  | '\\' :: '\\' :: cs => '\\' :: unescape cs
  | c :: cs => c :: unescape cs

/-- The text of a literal, without its first and last character, the quotes. -/
def unquote (literal : String) : String :=
  String.ofList (unescape literal.toList.tail.dropLast)

/-- The text of a literal is the text it was written for. -/
theorem unescape_escape (cs : List Char) : unescape (escape cs) = cs := by
  induction cs with
  | nil => rfl
  | cons c cs ih =>
    rw [escape]
    split
    · rename_i h
      rcases h with rfl | rfl <;> simp [unescape, ih]
    · rename_i h
      rw [unescape, ih] <;> rintro _ rfl <;> simp at h

theorem unquote_quote (text : String) : unquote (quote text) = text := by
  simp [unquote, quote, unescape_escape]

end ItemSql.Literal
