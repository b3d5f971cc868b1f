import ItemSql.Json.Node
import ItemSql.Proofs.Decimal.Numeral

/-!
# The grammar of JSON texts

What a JSON text is and what it says, apart from any reader. White space may stand around each
value and each name. A string may escape any of its characters, and must escape quotes, backslashes
and controls; one beyond the first plane may be escaped as a pair of surrogates, but no surrogate
stands alone. A number may be as long and an object may be as deep as it likes, and the names of an
object may repeat.
-/

namespace ItemSql.Json

open Decimal (IsDigits)

/-- White space between the parts of a text. -/
def Blank (w : List Char) : Prop :=
  ∀ c ∈ w, c ∈ [' ', '\t', '\n', '\r']

/-! ## Strings -/

/-- The letters that may stand behind a backslash, with the characters they stand for. -/
def escapes : List (Char × Char) :=
  [('"', '"'), ('\\', '\\'), ('/', '/'), ('b', '\x08'), ('f', '\x0c'), ('n', '\n'), ('r', '\r'),
    ('t', '\t')]

/-- A string between its quotes, and the characters it stands for. -/
inductive StringText : List Char → List Char → Prop
  | nil : StringText [] []
  | plain {c : Char} {w cs : List Char} (hquote : c ≠ '"') (hbackslash : c ≠ '\\')
      (hcontrol : 0x20 ≤ c.toNat) (h : StringText w cs) : StringText (c :: w) (c :: cs)
  | escape {letter c : Char} {w cs : List Char} (hletter : (letter, c) ∈ escapes)
      (h : StringText w cs) : StringText ('\\' :: letter :: w) (c :: cs)
  /-- Four digits of a code unit that is no surrogate. -/
  | unit {a b c d : Char} {n : Nat} {w cs : List Char} (hunit : codeUnit? a b c d = some n)
      (hplain : n < 0xD800 ∨ 0xE000 ≤ n) (h : StringText w cs) :
      StringText ('\\' :: 'u' :: a :: b :: c :: d :: w) (Char.ofNat n :: cs)
  /-- A pair of surrogates. -/
  | pair {a b c d a' b' c' d' : Char} {lead trail : Nat} {w cs : List Char}
      (hlead : codeUnit? a b c d = some lead) (htrail : codeUnit? a' b' c' d' = some trail)
      (hleads : 0xD800 ≤ lead ∧ lead < 0xDC00) (htrails : 0xDC00 ≤ trail ∧ trail < 0xE000)
      (h : StringText w cs) :
      StringText ('\\' :: 'u' :: a :: b :: c :: d :: '\\' :: 'u' :: a' :: b' :: c' :: d' :: w)
        (Char.ofNat (0x10000 + (lead - 0xD800) * 0x400 + (trail - 0xDC00)) :: cs)

/-! ## Numbers -/

/-- The value of a digit. -/
def digitValue (c : Char) : Nat :=
  c.toNat - 0x30

/-- The digits before the point. A zero stands alone. -/
inductive WholeText : List Char → Prop
  | zero : WholeText ['0']
  | digits {d : Char} {ds : List Char} (hzero : d ≠ '0') (hds : IsDigits (d :: ds)) :
      WholeText (d :: ds)

/-- The point and the digits behind it, if there are any. -/
inductive FractionText : List Char → Option (List Nat) → Prop
  | none : FractionText [] none
  | some {ds : List Char} (hds : IsDigits ds) :
      FractionText ('.' :: ds) (some (ds.map digitValue))

/-- The mark of an exponent and what stands behind it, if there is one. -/
inductive ExponentText : List Char → Option Int → Prop
  | none : ExponentText [] none
  | some {mark : Char} {sign ds : List Char} (hmark : mark = 'e' ∨ mark = 'E')
      (hsign : sign ∈ [[], ['+'], ['-']]) (hds : IsDigits ds) :
      ExponentText (mark :: (sign ++ ds))
        (some (if sign = ['-'] then -(Nat.ofDigitChars 10 ds 0 : Int)
          else Nat.ofDigitChars 10 ds 0))

/-- A number behind its sign, which its parts keep. -/
inductive UnsignedText (negative : Bool) : List Char → Numeral → Prop
  | mk {whole fraction exponent : List Char} {fraction? : Option (List Nat)}
      {exponent? : Option Int} (hwhole : WholeText whole)
      (hfraction : FractionText fraction fraction?) (hexponent : ExponentText exponent exponent?) :
      UnsignedText negative (whole ++ (fraction ++ exponent))
        ⟨negative, whole.map digitValue, fraction?, exponent?⟩

/-- A number and its parts. -/
inductive NumberText : List Char → Numeral → Prop
  | plain {w : List Char} {n : Numeral} (h : UnsignedText false w n) : NumberText w n
  | negative {w : List Char} {n : Numeral} (h : UnsignedText true w n) : NumberText ('-' :: w) n

/-! ## Values -/

/-- A member of an object: the texts of its name and of its value, and what they say. -/
structure MemberText where
  nameText : List Char
  name : String
  valueText : List Char
  value : Node

/-- The text of a member. -/
def MemberText.text (m : MemberText) : List Char :=
  m.nameText ++ ':' :: m.valueText

/-- The name and the value of a member. -/
def MemberText.node (m : MemberText) : Node × Node :=
  (.string (.ok m.name), m.value)

/-- The text of a value, and the tree of the value. -/
inductive Spells : List Char → Node → Prop
  | blank {before w after : List Char} {node : Node} (hbefore : Blank before) (hafter : Blank after)
      (h : Spells w node) : Spells (before ++ (w ++ after)) node
  | null : Spells ['n', 'u', 'l', 'l'] .null
  | bool (b : Bool) : Spells (boolChars b) (.bool b)
  | number {w : List Char} {n : Numeral} (h : NumberText w n) : Spells w (.number n)
  | string {w cs : List Char} (h : StringText w cs) :
      Spells ('"' :: (w ++ ['"'])) (.string (.ok (String.ofList cs)))
  | emptyArray {w : List Char} (h : Blank w) : Spells ('[' :: (w ++ [']'])) (.array [] .closed)
  | array {items : List (List Char × Node)} (hne : items ≠ []) (h : ∀ i ∈ items, Spells i.1 i.2) :
      Spells ('[' :: ([','].intercalate (items.map Prod.fst) ++ [']']))
        (.array (items.map Prod.snd) .closed)
  | emptyObject {w : List Char} (h : Blank w) :
      Spells ('\x7b' :: (w ++ ['\x7d'])) (.object [] .closed)
  | object {members : List MemberText} (hne : members ≠ [])
      (hnames : ∀ m ∈ members, Spells m.nameText (.string (.ok m.name)))
      (hvalues : ∀ m ∈ members, Spells m.valueText m.value) :
      Spells ('\x7b' :: ([','].intercalate (members.map MemberText.text) ++ ['\x7d']))
        (.object (members.map MemberText.node) .closed)

/-- A text is a JSON document that says what the tree holds. -/
def Document (text : String) (node : Node) : Prop :=
  Spells text.toList node

end ItemSql.Json
