/-!
# Bytes read as UTF-8

A sequence of bytes is read as UTF-8 into *glyphs*: the characters it spells, and between them the
runs of bytes that spell none. A run is as long as the beginning of some character, and no longer,
so each byte that could begin a character does begin one. A text that must be shown whatever its
bytes puts one replacement character in place of each run; a reader that insists on UTF-8 refuses
the run instead. Both look at the same glyphs.

The reader takes one byte at a time. Between characters it holds nothing; inside one it holds what
the character has so far, how many bytes are owed, and the range that the next byte must lie in.
-/

namespace ItemSql.Text

/-- A sequence of bytes, the first one first. -/
abbrev Bytes := List UInt8

/-- A piece of a byte sequence: a character, or a run of bytes that spells none. -/
inductive Glyph where
  | char (c : Char)
  | stray (run : Bytes)
  deriving DecidableEq, Repr

/-- The bytes of a text in UTF-8. -/
def utf8 (text : String) : Bytes :=
  text.toList.flatMap String.utf8EncodeChar

namespace Glyph

/-- The beginning of a character of more than one byte. -/
structure Opening where
  /-- The bytes so far. -/
  run : Bytes
  /-- The bits so far. -/
  bits : Nat
  /-- How many bytes are owed beyond the next one. -/
  owed : Nat
  /-- The least and the greatest byte that may come next. -/
  low : UInt8
  high : UInt8

/-- What a byte between characters does. -/
inductive First where
  | whole (c : Char)
  | opens (o : Opening)
  | strays

/-- Reads a byte between characters. The bounds on the second byte keep out overlong forms, the
surrogates and what lies beyond the last code point. -/
def first (b : UInt8) : First :=
  if b < 0x80 then .whole (Char.ofNat b.toNat)
  else if b < 0xC2 then .strays
  else if b < 0xE0 then .opens ⟨[b], b.toNat - 0xC0, 0, 0x80, 0xBF⟩
  else if b = 0xE0 then .opens ⟨[b], 0, 1, 0xA0, 0xBF⟩
  else if b = 0xED then .opens ⟨[b], 0xD, 1, 0x80, 0x9F⟩
  else if b < 0xF0 then .opens ⟨[b], b.toNat - 0xE0, 1, 0x80, 0xBF⟩
  else if b = 0xF0 then .opens ⟨[b], 0, 2, 0x90, 0xBF⟩
  else if b < 0xF4 then .opens ⟨[b], b.toNat - 0xF0, 2, 0x80, 0xBF⟩
  else if b = 0xF4 then .opens ⟨[b], 4, 2, 0x80, 0x8F⟩
  else .strays

/-- Whether a byte may come next after the beginning of a character. -/
def Opening.takes (o : Opening) (b : UInt8) : Bool :=
  o.low ≤ b && b ≤ o.high

/-- The beginning of a character that no byte goes on is a stray run. -/
def abandoned : Option Opening → List Glyph
  | none => []
  | some o => [.stray o.run]

/-- Reads the glyphs of the bytes, after the beginning of a character if there is one. -/
def read : Option Opening → Bytes → List Glyph
  | open?, [] => abandoned open?
  | open?, b :: rest =>
    match open?.filter (·.takes b) with
    | some o =>
      let bits := o.bits * 64 + (b.toNat - 0x80)
      match o.owed with
      | 0 => .char (Char.ofNat bits) :: read none rest
      | n + 1 => read (some ⟨o.run ++ [b], bits, n, 0x80, 0xBF⟩) rest
    | none =>
      abandoned open? ++
        match first b with
        | .whole c => .char c :: read none rest
        | .opens o => read (some o) rest
        | .strays => .stray [b] :: read none rest

/-- The glyphs of a byte sequence. -/
def ofBytes (bytes : Bytes) : List Glyph :=
  read none bytes

/-- The glyphs of a text: its characters. -/
def ofString (text : String) : List Glyph :=
  text.toList.map .char

/-- The number of bytes a glyph was read from. -/
def size : Glyph → Nat
  | .char c => c.utf8Size
  | .stray run => run.length

/-- The number of bytes that the glyphs were read from. -/
def totalSize : List Glyph → Nat
  | [] => 0
  | g :: rest => g.size + totalSize rest

/-- The character that stands for a glyph where text must be shown. -/
def shown : Glyph → Char
  | .char c => c
  | .stray _ => '\ufffd'

end Glyph

/-- The text of a byte sequence, with a replacement character for each run that spells nothing. -/
def lossy (bytes : Bytes) : String :=
  String.ofList ((Glyph.ofBytes bytes).map Glyph.shown)

/-- The text of a byte sequence that is UTF-8 throughout. -/
def ofUtf8? (bytes : Bytes) : Option String :=
  String.ofList <$> (Glyph.ofBytes bytes).mapM fun g ↦
    match g with
    | .char c => some c
    | .stray _ => none

end ItemSql.Text
