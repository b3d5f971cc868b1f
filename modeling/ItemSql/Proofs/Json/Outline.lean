import ItemSql.Proofs.Json.Grammar

/-!
# Texts that are JSON but for what strings hold

A reader that passes over a value looks at its marks, its words and its numbers, but not at what its
strings say. So what it accepts is wider than the grammar of JSON texts in one respect. Between the
quotes of a string there may be bytes that spell no character, and surrogates that stand alone.
Such a string has a place in the tree and no text.

The texts are therefore made of glyphs here, and the grammar is otherwise the same: a text of the
grammar has the same tree in both (`Spells.outlines`).
-/

namespace ItemSql.Json

open Text (Glyph)

/-! ## Strings -/

/-- What stands between the quotes of a string, cut into pieces. -/
inductive Cutting : List Glyph → List Piece → Prop
  | nil : Cutting [] []
  | plain {c : Char} {w : List Glyph} {pieces : List Piece} (hquote : c ≠ '"')
      (hbackslash : c ≠ '\\') (hcontrol : 0x20 ≤ c.toNat) (h : Cutting w pieces) :
      Cutting (.char c :: w) (.char c :: pieces)
  /-- Bytes that spell no character. -/
  | stray {run : Text.Bytes} {w : List Glyph} {pieces : List Piece} (h : Cutting w pieces) :
      Cutting (.stray run :: w) (.stray :: pieces)
  | escape {letter c : Char} {w : List Glyph} {pieces : List Piece}
      (hletter : (letter, c) ∈ escapes) (h : Cutting w pieces) :
      Cutting (.char '\\' :: .char letter :: w) (.char c :: pieces)
  /-- Four digits of any code unit, be it a surrogate or not. -/
  | unit {a b c d : Char} {n : Nat} {w : List Glyph} {pieces : List Piece}
      (hunit : codeUnit? a b c d = some n) (h : Cutting w pieces) :
      Cutting (.char '\\' :: .char 'u' :: .char a :: .char b :: .char c :: .char d :: w)
        (.unit n :: pieces)

/-- What stands between the quotes of a string, and its text if it has one. -/
inductive Quotes : List Glyph → Except Fault String → Prop
  | text {w cs : List Char} (h : StringText w cs) : Quotes (w.map .char) (.ok (String.ofList cs))
  | noText {w : List Glyph} {pieces : List Piece} (h : Cutting w pieces)
      (hno : ∀ v cs, StringText v cs → v.map .char ≠ w) : Quotes w (.error .malformed)

/-! ## Values -/

/-- A member that is called by a string. -/
def called (m : Except Fault String × Node) : Node × Node :=
  (.string m.1, m.2)

/-- A member of an object: the texts of its name and of its value, and what they say. -/
structure MemberOutline where
  nameText : List Glyph
  name : Except Fault String
  valueText : List Glyph
  value : Node

/-- The text of a member. -/
def MemberOutline.text (m : MemberOutline) : List Glyph :=
  m.nameText ++ .char ':' :: m.valueText

/-- The name and the value of a member. -/
def MemberOutline.node (m : MemberOutline) : Node × Node :=
  called (m.name, m.value)

/-- The text of a value, whatever its strings hold, and the tree of the value. -/
inductive Outlines : List Glyph → Node → Prop
  | blank {before after : List Char} {w : List Glyph} {node : Node} (hbefore : Blank before)
      (hafter : Blank after) (h : Outlines w node) :
      Outlines (before.map .char ++ (w ++ after.map .char)) node
  | null : Outlines (['n', 'u', 'l', 'l'].map .char) .null
  | bool (b : Bool) : Outlines ((boolChars b).map .char) (.bool b)
  | number {w : List Char} {n : Numeral} (h : NumberText w n) :
      Outlines (w.map .char) (.number n)
  | string {w : List Glyph} {text : Except Fault String} (h : Quotes w text) :
      Outlines (.char '"' :: (w ++ [.char '"'])) (.string text)
  | emptyArray {w : List Char} (h : Blank w) :
      Outlines (.char '[' :: (w.map .char ++ [.char ']'])) (.array [] .closed)
  | array {items : List (List Glyph × Node)} (hne : items ≠ [])
      (h : ∀ i ∈ items, Outlines i.1 i.2) :
      Outlines (.char '[' :: ([.char ','].intercalate (items.map Prod.fst) ++ [.char ']']))
        (.array (items.map Prod.snd) .closed)
  | emptyObject {w : List Char} (h : Blank w) :
      Outlines (.char '\x7b' :: (w.map .char ++ [.char '\x7d'])) (.object [] .closed)
  | object {members : List MemberOutline} (hne : members ≠ [])
      (hnames : ∀ m ∈ members, Outlines m.nameText (.string m.name))
      (hvalues : ∀ m ∈ members, Outlines m.valueText m.value) :
      Outlines
        (.char '\x7b' ::
          ([.char ','].intercalate (members.map MemberOutline.text) ++ [.char '\x7d']))
        (.object (members.map MemberOutline.node) .closed)

/-! ## Texts of the grammar -/

theorem map_intercalate {α β : Type} (f : α → β) (a : α) (pieces : List (List α)) :
    ([a].intercalate pieces).map f = [f a].intercalate (pieces.map (List.map f)) := by
  induction pieces with
  | nil => rfl
  | cons p ps ih =>
    cases ps with
    | nil => rw [List.map_singleton, List.intercalate_singleton, List.intercalate_singleton]
    | cons q qs =>
      rw [List.map_cons] at ih
      rw [List.map_cons, List.map_cons, List.intercalate_cons_cons, List.intercalate_cons_cons,
        List.map_append, List.map_append, ih, List.map_singleton]

/-- The glyphs of a member of the grammar. -/
def MemberText.outline (m : MemberText) : MemberOutline :=
  ⟨m.nameText.map .char, .ok m.name, m.valueText.map .char, m.value⟩

theorem MemberText.text_outline :
    MemberOutline.text ∘ MemberText.outline = List.map .char ∘ MemberText.text := by
  funext m
  rw [Function.comp_apply, Function.comp_apply, MemberText.text, List.map_append]
  rfl

/-- A text of the grammar has the same tree whatever strings may hold. -/
theorem Spells.outlines {w : List Char} {node : Node} (h : Spells w node) :
    Outlines (w.map .char) node := by
  induction h with
  | blank hbefore hafter _ ih =>
    rw [List.map_append, List.map_append]
    exact .blank hbefore hafter ih
  | null => exact .null
  | bool b => exact .bool b
  | number h => exact .number h
  | string h =>
    rw [List.map_cons, List.map_append]
    exact .string (.text h)
  | emptyArray h =>
    rw [List.map_cons, List.map_append]
    exact .emptyArray h
  | emptyObject h =>
    rw [List.map_cons, List.map_append]
    exact .emptyObject h
  | @array items hne _ ih =>
    have harray := @Outlines.array (items.map fun i ↦ (i.1.map .char, i.2))
      (mt List.map_eq_nil_iff.mp hne) (List.forall_mem_map.mpr ih)
    rw [List.map_map, List.map_map] at harray
    rw [List.map_cons, List.map_append, map_intercalate, List.map_map]
    exact harray
  | @object members hne _ _ ihnames ihvalues =>
    have hobject := @Outlines.object (members.map MemberText.outline)
      (mt List.map_eq_nil_iff.mp hne) (List.forall_mem_map.mpr ihnames)
      (List.forall_mem_map.mpr ihvalues)
    rw [List.map_map, List.map_map, MemberText.text_outline] at hobject
    rw [List.map_cons, List.map_append, map_intercalate, List.map_map]
    exact hobject

end ItemSql.Json
