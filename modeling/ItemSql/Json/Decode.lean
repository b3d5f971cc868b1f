import ItemSql.Json.Node
import ItemSql.Text.Escaped

/-!
# Decoding values of a given type

A decoder walks the tree of a text in order and answers a value of a Lean type, or the first thing
that is wrong. That is a fault of the text, or a value that is well formed but not of the type.

Records are described by their fields. A record is given as an object, whose members come in any
order and may hold unknown names, or as an array of the field values in order. A field that is
missing is refused, or has a value to stand in for it; for some fields there is such a value in an
object but not in an array.
-/

namespace ItemSql.Json

/-! ## What can be wrong -/

/-- What was found where a value of another type is due. -/
inductive Found where
  | null
  | boolean (b : Bool)
  | integer (n : Int)
  | double (x : Float)
  | string (text : String)
  | sequence
  | map

/-- Why a text was not decoded. -/
inductive DecodeError where
  /-- The text cannot be read. -/
  | fault (f : Fault)
  /-- A value is of another type. -/
  | mismatch (found : Found) (expected : String)
  /-- An integer is beyond the range of its type. -/
  | outOfRange (n : Int) (expected : String)
  | unknownField (name : String) (known : List String)
  | unknownVariant (name : String) (known : List String)
  | missingField (name : String)
  | duplicateField (name : String)
  /-- An array holds too few elements for a record of `fields` fields. -/
  | tooShort (length : Nat) (record : String) (fields : Nat)
  /-- An attribute value names more than one type. -/
  | manyTypes

/-- The category of an error: how the text fails. -/
inductive Category where
  | malformed
  | truncated
  | data
  deriving DecidableEq, Repr

/-- The category of an error: all that is not a fault of the text is a matter of types. -/
def DecodeError.category : DecodeError → Category
  | .fault .truncated => .truncated
  | .fault _ => .malformed
  | _ => .data

/-- A fault in words. There are none for the faults of a text that is no JSON: only texts that are
JSON throughout are decoded in order to report the error. -/
def Fault.message : Fault → String
  | .truncated | .malformed => ""
  | .noValue => "expected value"
  | .trailing => "trailing characters"

/-- A name between backquotes. -/
def ticked (name : String) : String :=
  "\x60" ++ name ++ "\x60"

/-- What was found, in words. -/
def Found.message : Found → String
  | .null => "null"
  | .boolean b => "boolean " ++ ticked (String.ofList (boolChars b))
  | .integer n => "integer " ++ ticked (Decimal.ofInt n)
  | .double x => "floating point " ++ ticked (Decimal.Layout.scientific.write x.toBits)
  | .string text => "string " ++ Text.escaped text
  | .sequence => "sequence"
  | .map => "map"

/-- A choice of names, in words. -/
def oneOf (names : List String) : String :=
  match names with
  | [a] => ticked a
  | [a, b] => ticked a ++ " or " ++ ticked b
  | names => "one of " ++ String.intercalate ", " (names.map ticked)

/-- The error in words. -/
def DecodeError.message : DecodeError → String
  | .fault f => f.message
  | .mismatch found expected => "invalid type: " ++ found.message ++ ", expected " ++ expected
  | .outOfRange n expected =>
    "invalid value: " ++ (Found.integer n).message ++ ", expected " ++ expected
  | .unknownField name known =>
    "unknown field " ++ ticked name ++ ", expected " ++ oneOf known
  | .unknownVariant name known =>
    "unknown variant " ++ ticked name ++ ", expected " ++ oneOf known
  | .missingField name => "missing field " ++ ticked name
  | .duplicateField name => "duplicate field " ++ ticked name
  | .tooShort length record fields =>
    "invalid length " ++ Decimal.ofNat length ++ ", expected struct " ++ record ++ " with " ++
      Decimal.ofNat fields ++ if fields = 1 then " element" else " elements"
  | .manyTypes => "attribute value must carry exactly one type key"

/-- The result of decoding. -/
abbrev Decoded := Except DecodeError

/-- A decoder of a type. -/
abbrev Decoder (α : Type) := Node → Decoded α

/-- A fault of the text is an error of decoding. -/
def ofFault {α : Type} : Except Fault α → Decoded α
  | .ok a => .ok a
  | .error f => .error (.fault f)

/-- A list must end properly once its elements are decoded. -/
def Ending.check (ending : Ending) : Decoded Unit :=
  match ending.fault? with
  | none => .ok ()
  | some f => .error (.fault f)

namespace Decode

/-! ## Scalars and lists -/

/-- The error of a node that is not of the expected type. What the node is shows at its first
character, except that scalars are read first. -/
def mismatch {α : Type} (expected : String) : Decoder α
  | .null => .error (.mismatch .null expected)
  | .bool b => .error (.mismatch (.boolean b) expected)
  | .number n =>
    match n.value? with
    | some (.integer i) => .error (.mismatch (.integer i) expected)
    | some (.double x) => .error (.mismatch (.double x) expected)
    | none => .error (.fault .malformed)
  | .string (.ok text) => .error (.mismatch (.string text) expected)
  | .string (.error f) => .error (.fault f)
  | .array _ _ => .error (.mismatch .sequence expected)
  | .object _ _ => .error (.mismatch .map expected)
  | .cut c => .error (.fault c.read)

/-- Decodes a string. -/
def string : Decoder String
  | .string text => ofFault text
  | node => mismatch "a string" node

/-- Decodes a truth value. -/
def boolean : Decoder Bool
  | .bool b => .ok b
  | node => mismatch "a boolean" node

/-- Decodes an integer of a fixed width, which `expected` names. -/
def fixedWidth {α : Type} (ofInt? : Int → Option α) (expected : String) : Decoder α
  | .number n =>
    match n.value? with
    | some (.integer i) =>
      match ofInt? i with
      | some a => .ok a
      | none => .error (.outOfRange i expected)
    | _ => mismatch expected (.number n)
  | node => mismatch expected node

/-- Decodes a 64-bit integer. -/
def int64 : Decoder Int64 := fixedWidth Decimal.toInt64? "i64"

/-- Decodes a 32-bit integer. -/
def int32 : Decoder Int32 := fixedWidth Decimal.toInt32? "i32"

/-- The double nearest to an integer. -/
def doubleOfInt (n : Int) : Float :=
  if n < 0 then -n.natAbs.toUInt64.toFloat else n.natAbs.toUInt64.toFloat

/-- Decodes a double. An integer will do. -/
def double : Decoder Float
  | .number n =>
    match n.value? with
    | some (.integer i) => .ok (doubleOfInt i)
    | some (.double x) => .ok x
    | none => .error (.fault .malformed)
  | node => mismatch "f64" node

/-- Decodes null as nothing, and anything else as it would be without this. -/
def optional {α : Type} (decode : Decoder α) : Decoder (Option α)
  | .null => .ok none
  | .cut ⟨read, _, .openNull⟩ => .error (.fault read)
  | node => (decode node).map some

/-- Decodes an array of values of one type. -/
def list {α : Type} (decode : Decoder α) : Decoder (List α)
  | .array items ending => do
    let values ← items.mapM decode
    ending.check
    return values
  | node => mismatch "a sequence" node

/-- Decodes the null that stands for a value of no content. -/
def unit : Decoder Unit
  | .null => .ok ()
  | node => mismatch "unit" node

/-- Decodes a member of a vocabulary: its name alone, or its name with null in an object. -/
def variant {α : Type} (all : List α) (nameOf : α → String) : Decoder α
  | .string text => do resolve (← ofFault text)
  | .object [] (.stopped .truncated) => .error (.fault .truncated)
  | .object ((name, content) :: more) ending => do
    let a ← resolve (← ofFault name.name)
    unit content
    match more, ending with
    | [], .closed => return a
    | [], .stopped .truncated => .error (.fault .truncated)
    | _, _ => .error (.fault .noValue)
  | .cut ⟨read, _, .nothing⟩ => .error (.fault read)
  | .cut ⟨read, _, .openString⟩ => .error (.fault read)
  | _ => .error (.fault .noValue)
where
  resolve (text : String) : Decoded α :=
    match all.find? fun a ↦ nameOf a = text with
    | some a => .ok a
    | none => .error (.unknownVariant text (all.map nameOf))

/-! ## Records -/

/-- What stands in for a field that is missing. -/
inductive Missing (α : Type) where
  /-- Nothing does: the field is required. -/
  | refused
  /-- The value does, in an object; an array must have the field. -/
  | inObject (value : α)
  /-- The value does, in an object and in an array. -/
  | anywhere (value : α)

/-- A field of a record. -/
structure Field (α : Type) where
  name : String
  /-- Other names that an object may have for it. -/
  aliases : List String
  missing : Missing α
  decode : Decoder α

/-- A field that must be there. -/
def Field.required {α : Type} (name : String) (decode : Decoder α) : Field α :=
  ⟨name, [], .refused, decode⟩

/-- A field that may be missing in an object. -/
def Field.maybe {α : Type} (name : String) (decode : Decoder α) : Field (Option α) :=
  ⟨name, [], .inObject none, optional decode⟩

/-- A field that may be missing in an object or at the end of an array. -/
def Field.defaulted {α : Type} (name : String) (value : α) (decode : Decoder α) : Field α :=
  ⟨name, [], .anywhere value, decode⟩

/-- Whether an object may have this name for the field. -/
def Field.answers {α : Type} (f : Field α) (name : String) : Bool :=
  name = f.name || f.aliases.contains name

/-- The fields of a record, in order. `σ` holds the fields found so far, `τ` all of them. -/
inductive Fields : (σ τ : Type) → Type 1 where
  | none : Fields Unit Unit
  | field {α σ τ : Type} (f : Field α) (rest : Fields σ τ) : Fields (Option α × σ) (α × τ)

namespace Fields

/-- The number of fields. -/
def count {σ τ : Type} : Fields σ τ → Nat
  | .none => 0
  | .field _ rest => rest.count + 1

/-- No field found yet. -/
def start {σ τ : Type} : Fields σ τ → σ
  | .none => ()
  | .field _ rest => (Option.none, rest.start)

/-- Takes a member of an object. A name that no field answers to is passed over; a field that was
found before is refused at its name. -/
def member {σ τ : Type} (name : String) (value : Node) : Fields σ τ → σ → Decoded σ
  | .none, () =>
    match value.fault? with
    | Option.none => .ok ()
    | some f => .error (.fault f)
  | .field f rest, (found, others) =>
    if f.answers name then
      match found with
      | some _ => .error (.duplicateField f.name)
      | Option.none => (f.decode value).map fun a ↦ (some a, others)
    else (rest.member name value others).map fun others ↦ (found, others)

/-- Takes the members of an object in turn. -/
def members {σ τ : Type} (fields : Fields σ τ) : List (Node × Node) → σ → Decoded σ
  | [], found => .ok found
  | (n, value) :: ms, found => do
    let name ← ofFault n.name
    let found ← fields.member name value found
    fields.members ms found

/-- The record of the fields found in an object. -/
def finish {σ τ : Type} : Fields σ τ → σ → Decoded τ
  | .none, () => .ok ()
  | .field f rest, (found, others) => do
    let a ← match found, f.missing with
      | some a, _ => .ok a
      | Option.none, .inObject a => .ok a
      | Option.none, .anywhere a => .ok a
      | Option.none, .refused => .error (.missingField f.name)
    return (a, ← rest.finish others)

/-- The record of an array of field values, of which `taken` came before. -/
def items {σ τ : Type} (record : String) (total taken : Nat) (ending : Ending) :
    Fields σ τ → List Node → Decoded τ
  | .none, [] =>
    match ending with
    | .closed => .ok ()
    | .stopped .truncated => .error (.fault .truncated)
    | _ => .error (.fault .trailing)
  | .none, _ :: _ => .error (.fault .trailing)
  | .field f rest, value :: values => do
    let a ← f.decode value
    return (a, ← items record total (taken + 1) ending rest values)
  | .field f rest, [] => do
    ending.check
    match f.missing with
    | .anywhere a => return (a, ← items record total (taken + 1) ending rest [])
    | _ => .error (.tooShort taken record total)

/-- Decodes a record. -/
def decode {σ τ : Type} (record : String) (fields : Fields σ τ) : Decoder τ
  | .object ms ending => do
    let found ← fields.members ms fields.start
    ending.check
    fields.finish found
  | .array values ending => items record fields.count 0 ending fields values
  | node => mismatch ("struct " ++ record) node

end Fields

/-! ## Whole texts -/

/-- Decodes a whole text. Nothing but white space may stand behind the value. -/
def glyphs {α : Type} (decode : Decoder α) (text : List Text.Glyph) : Decoded α := do
  let (node, clean) := Node.ofGlyphs text
  let a ← decode node
  if clean then return a else .error (.fault .trailing)

/-- Decodes the bytes of a text. -/
def bytes {α : Type} (decode : Decoder α) (text : Text.Bytes) : Decoded α :=
  glyphs decode (Text.Glyph.ofBytes text)

end Decode

end ItemSql.Json
