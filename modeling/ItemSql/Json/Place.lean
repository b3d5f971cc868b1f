import ItemSql.Json.Decode

/-!
# Where a text is refused

An error of decoding is reported with a line and a column: the reader of the text says how far it
has come. It goes from left to right and reports the first error, so it has *found* an error where
nothing that stands behind matters any more. It may stand elsewhere by then. A number is read to its
end before it is looked at, an opening bracket is looked at before it is taken, and behind a name
that is refused the reader still goes on to the next mark.

Only texts that are JSON throughout are decoded in order to report the error. So there is a mark
behind a name, and another element behind a comma.
-/

namespace ItemSql.Json

open Text (Glyph)

/-- A place in a text. A column is the number of bytes before it on its line. -/
structure Place where
  line : Nat
  column : Nat
  deriving DecidableEq, Repr

/-- The place behind some glyphs. -/
def Place.behind (glyphs : List Glyph) : Place where
  line := 1 + glyphs.count (.char '\n')
  column := Glyph.totalSize (glyphs.reverse.takeWhile (· ≠ .char '\n'))

/-- Whether a text is refused with the error, in so many words. -/
def refuses {α : Type} (decode : Decoder α) (e : DecodeError) (text : List Glyph) : Bool :=
  match Decode.glyphs decode text with
  | .ok _ => false
  | .error e' => e'.message = e.message

/-- The number of glyphs at the front of a text in which the error is found: the text is refused
with it wherever it is cut off behind them, and not if it is cut off just before the last one. -/
def foundIn {α : Type} (decode : Decoder α) (e : DecodeError) (text : List Glyph) : Nat :=
  let cuts := (List.range text.length).reverse
  text.length - (cuts.takeWhile fun n ↦ refuses decode e (text.take n)).length

/-- Whether a glyph may go on a number. -/
def inNumber : Glyph → Bool
  | .char c => c.isDigit || ['.', 'e', 'E', '+', '-'].contains c
  | .stray _ => false

/-- The number of glyphs that the reader has taken when it reports an error, which is found in the
first `n` glyphs. -/
def takenFor (e : DecodeError) (text : List Glyph) (n : Nat) : Nat :=
  let rest := text.drop n
  let spaces := (rest.takeWhile isSpace).length
  match e with
  | .mismatch .sequence _ | .mismatch .map _ => n - 1
  | .mismatch (.integer _) _ | .mismatch (.double _) _ | .outOfRange _ _ =>
    n + (rest.takeWhile inNumber).length
  | .unknownField _ _ | .duplicateField _ | .manyTypes => n + spaces
  | .fault .noValue =>
    -- A comma behind the name of a member of a vocabulary is not taken.
    if (text.take n).getLast? = some (.char ',') then n - 1 else n
  | .fault .trailing => n + spaces + 1
  | _ => n

/-- The place at which a text is refused with an error. -/
def placeOf {α : Type} (decode : Decoder α) (text : Text.Bytes) (e : DecodeError) : Place :=
  let glyphs := Glyph.ofBytes text
  .behind (glyphs.take (takenFor e glyphs (foundIn decode e glyphs)))

/-- The error in words, with its place. -/
def DecodeError.report (e : DecodeError) (place : Place) : String :=
  e.message ++ " at line " ++ Decimal.ofNat place.line ++ " column " ++ Decimal.ofNat place.column

end ItemSql.Json
