import ItemSql.Condition
import ItemSql.Proofs.Token.Symbol
import ItemSql.Schema

/-!
# Reserved words among the symbols

The scanner reserves words and signs, and a reader asks what a reserved one stands for. The scanner
goes by full lower case and the reader by the lower case of ASCII letters. The two differ at the
Kelvin sign alone, which the scanner takes for a `k`, and there is a `k` in one reserved word only,
the operator `like`. So the readers know every other reserved word, and an operator symbol stands
for nothing exactly if it holds that sign (`understood_scan`).

An operator that is known is in its own class: `between` is a keyword, and every other operator is
an operator symbol.
-/

namespace ItemSql.Token

/-! ## Words and signs -/

theorem worded_of_toList {text : String} {c : Char} {cs : List Char} {kind : Kind}
    (htext : text.toList = c :: cs) (hword : wordKind (String.ofList (c :: cs)) = kind) :
    Worded text kind := by
  rw [← htext, String.ofList_toList] at hword
  exact hword ▸ worded text

/-- The symbols of these classes are words, each in its class for the reason that `Worded` gives. -/
theorem Symbol.IsCut.worded {s : Symbol} (h : s.IsCut)
    (hkind : s.kind ∈ [.keyword, .typeName, .constraint, .identifier]) : Worded s.text s.kind := by
  obtain ⟨c, cs, more, hm, htext⟩ := h
  generalize s.kind = kind at hm hkind
  cases hm with
  | word _ hword => exact worded_of_toList htext hword
  | _ => simp at hkind

/-- An operator symbol is a word or one of five signs. -/
theorem Symbol.IsCut.worded_or_sign {s : Symbol} (h : s.IsCut) (hkind : s.kind = .operator) :
    Worded s.text .operator ∨ ∃ op ∈ [ComparisonOperator.eq, .lt, .le, .gt, .ge],
      s.text = op.symbol := by
  obtain ⟨c, cs, more, hm, htext⟩ := h
  have hsign {sign : String} (hsign : sign.toList = c :: cs.take more) : s.text = sign :=
    String.toList_injective (htext.trans hsign.symm)
  rw [hkind] at hm
  cases hm with
  | word _ hword => exact .inl (worded_of_toList htext hword)
  | equals hc =>
    subst hc
    exact .inr ⟨.eq, by simp, hsign rfl⟩
  | order hc =>
    rcases hc with rfl | rfl
    · exact .inr ⟨.lt, by simp, hsign rfl⟩
    · exact .inr ⟨.gt, by simp, hsign rfl⟩
  | orderOrEquals hc hhead =>
    obtain ⟨rest, rfl⟩ := List.head?_eq_some_iff.mp hhead
    rcases hc with rfl | rfl
    · exact .inr ⟨.le, by simp, hsign rfl⟩
    · exact .inr ⟨.ge, by simp, hsign rfl⟩

/-! ## Operators -/

theorem lowerAscii_eq_symbol {text : String} {op : ComparisonOperator}
    (h : ComparisonOperator.ofSymbol? text = some op) : Text.lowerAscii text = op.symbol := by
  have := List.find?_some h
  exact (of_decide_eq_true this).symm

theorem foldCase_eq_symbol {text : String} {op : ComparisonOperator}
    (h : ComparisonOperator.ofSymbol? text = some op) : Text.foldCase text = op.symbol :=
  foldCase_eq_of_lowerAscii_eq (lowerAscii_eq_symbol h) (by cases op <;> decide)

theorem ofSymbol?_symbol (op : ComparisonOperator) :
    ComparisonOperator.ofSymbol? op.symbol = some op := by
  cases op <;> decide

theorem ofSymbol?_of_lowerAscii_eq {text : String} {op : ComparisonOperator}
    (h : Text.lowerAscii text = op.symbol) : ComparisonOperator.ofSymbol? text = some op := by
  rw [ComparisonOperator.ofSymbol?, h]
  cases op <;> decide

/-- The only keyword that compares is `between`. -/
theorem Symbol.IsCut.eq_between {s : Symbol} (h : s.IsCut) (hkind : s.kind = .keyword)
    {op : ComparisonOperator} (hop : ComparisonOperator.ofSymbol? s.text = some op) :
    op = .between := by
  have hclass := h.worded (by simp [hkind])
  rw [hkind] at hclass
  cases hclass with
  | keyword hmem =>
    rw [foldCase_eq_symbol hop] at hmem
    revert hmem
    cases op <;> decide

/-- No operator symbol is `between`. -/
theorem Symbol.IsCut.ne_between {s : Symbol} (h : s.IsCut) (hkind : s.kind = .operator) :
    ComparisonOperator.ofSymbol? s.text ≠ some .between := by
  intro hop
  rcases h.worded_or_sign hkind with hclass | ⟨op, hmem, htext⟩
  · cases hclass with
    | operator hmem =>
      rw [foldCase_eq_symbol hop] at hmem
      exact absurd hmem (by decide)
  · rw [htext, ofSymbol?_symbol] at hop
    rw [Option.some.inj hop] at hmem
    exact absurd hmem (by decide)

/-! ## Vocabularies -/

/-- A reserved word without a `k` is the same in both lower cases. -/
theorem lowerAscii_eq_foldCase {text : String} {words : List String}
    (h : Text.foldCase text ∈ words) (hwords : ∀ word ∈ words, 'k' ∉ word.toList) :
    Text.lowerAscii text = Text.foldCase text := by
  refine (foldCase_eq_lowerAscii fun hmem ↦ hwords _ h ?_).symm
  rw [Text.foldCase, String.toList_ofList]
  exact List.mem_map.mpr ⟨_, hmem, by decide⟩

/-- What the readers of a statement make of a token whose class is reserved. -/
structure Understood (t : Token) : Prop where
  keyword : t.kind = .keyword → ∃ word ∈ keywords, Text.equalsIgnoringCase t.text word = true
  typeName : t.kind = .typeName → ∃ type, AttributeType.ofWord? t.text = some type
  constraint : t.kind = .constraint →
    ((∃ type, KeyType.ofConstraint? t.text = some type) ↔
      Text.foldCase t.text = "hash" ∨ Text.foldCase t.text = "range")
  /-- The sign that stands for a `k` makes an operator that compares nothing. -/
  operator : t.kind = .operator →
    ((∃ op, ComparisonOperator.ofSymbol? t.text = some op) ↔ '\u212a' ∉ t.text.toList)

theorem Symbol.IsCut.exists_keyword {s : Symbol} (h : s.IsCut) (hkind : s.kind = .keyword) :
    ∃ word ∈ keywords, Text.equalsIgnoringCase s.text word = true := by
  have hclass := h.worded (by simp [hkind])
  rw [hkind] at hclass
  cases hclass with
  | keyword hmem =>
    have hlower : ∀ word ∈ keywords, Text.lowerAscii word = word := by decide +kernel
    refine ⟨_, hmem, beq_iff_eq.mpr ?_⟩
    rw [hlower _ hmem, lowerAscii_eq_foldCase hmem (by decide)]

theorem Symbol.IsCut.exists_type {s : Symbol} (h : s.IsCut) (hkind : s.kind = .typeName) :
    ∃ type, AttributeType.ofWord? s.text = some type := by
  have hclass := h.worded (by simp [hkind])
  rw [hkind] at hclass
  cases hclass with
  | typeName hmem =>
    have hfound : ∀ word ∈ typeNames, (AttributeType.all.find? (·.word = word)).isSome := by decide
    rw [AttributeType.ofWord?, lowerAscii_eq_foldCase hmem (by decide)]
    exact Option.isSome_iff_exists.mp (hfound _ hmem)

theorem Symbol.IsCut.exists_keyType_iff {s : Symbol} (h : s.IsCut) (hkind : s.kind = .constraint) :
    (∃ type, KeyType.ofConstraint? s.text = some type) ↔
      Text.foldCase s.text = "hash" ∨ Text.foldCase s.text = "range" := by
  have hclass := h.worded (by simp [hkind])
  rw [hkind] at hclass
  cases hclass with
  | constraint hmem =>
    have hhash : Text.lowerAscii "hash" = "hash" := by decide
    have hrange : Text.lowerAscii "range" = "range" := by decide
    rw [KeyType.ofConstraint?, Text.equalsIgnoringCase, Text.equalsIgnoringCase, hhash, hrange,
      lowerAscii_eq_foldCase hmem (by decide)]
    simp only [beq_iff_eq]
    split
    · simp [*]
    · split <;> simp [*]

theorem Symbol.IsCut.exists_operator_iff {s : Symbol} (h : s.IsCut) (hkind : s.kind = .operator) :
    (∃ op, ComparisonOperator.ofSymbol? s.text = some op) ↔ '\u212a' ∉ s.text.toList := by
  constructor
  · rintro ⟨op, hop⟩ hsign
    have hmem := mem_lowerAscii_of_mem hsign
    rw [lowerAscii_eq_symbol hop] at hmem
    revert hmem
    cases op <;> decide
  · intro hsign
    rcases h.worded_or_sign hkind with hclass | ⟨op, -, htext⟩
    · cases hclass with
      | operator hmem =>
        refine ⟨.beginsWith, ofSymbol?_of_lowerAscii_eq ?_⟩
        rw [← foldCase_eq_lowerAscii hsign, List.mem_singleton.mp hmem]
        rfl
    · exact ⟨op, htext ▸ ofSymbol?_symbol op⟩

/-- The readers know every reserved word that the scanner classes as such, but for an operator with
a Kelvin sign, and among the constraints they know those of keys. -/
theorem understood_scan {source : String} {t : Token} (ht : t ∈ scan source) : Understood t := by
  have hcut : t.kind ≠ .endOfInput → t.symbol.IsCut :=
    (scanned_scan source).isCut t.symbol (List.mem_map_of_mem ht)
  refine ⟨fun hkind ↦ ?_, fun hkind ↦ ?_, fun hkind ↦ ?_, fun hkind ↦ ?_⟩
  · exact (hcut (by simp [hkind])).exists_keyword hkind
  · exact (hcut (by simp [hkind])).exists_type hkind
  · exact (hcut (by simp [hkind])).exists_keyType_iff hkind
  · exact (hcut (by simp [hkind])).exists_operator_iff hkind

/-- A keyword, a type, a constraint that is no key, and an operator with a Kelvin sign in it. -/
def oddText : String :=
  "BETWEEN NumberSet Index li\u212ae"

theorem understood_scan_oddText :
    scan oddText = [⟨.keyword, "BETWEEN", 0⟩, ⟨.typeName, "NumberSet", 8⟩,
      ⟨.constraint, "Index", 18⟩, ⟨.operator, "li\u212ae", 24⟩, ⟨.endOfInput, "", 30⟩] ∧
      Understood ⟨.keyword, "BETWEEN", 0⟩ ∧ Understood ⟨.typeName, "NumberSet", 8⟩ ∧
      Understood ⟨.constraint, "Index", 18⟩ ∧ Understood ⟨.operator, "li\u212ae", 24⟩ := by
  have hscan : scan oddText = [⟨.keyword, "BETWEEN", 0⟩, ⟨.typeName, "NumberSet", 8⟩,
      ⟨.constraint, "Index", 18⟩, ⟨.operator, "li\u212ae", 24⟩, ⟨.endOfInput, "", 30⟩] := by
    decide +kernel
  have h : ∀ t ∈ scan oddText, Understood t := fun _ ↦ understood_scan
  rw [hscan] at h
  exact ⟨hscan, h _ (by decide), h _ (by decide), h _ (by decide), h _ (by decide)⟩

/-- Not every operator that the scanner reserves compares. -/
theorem scan_operator_unknown :
    ¬ ∀ (source : String) (t : Token), t ∈ scan source → t.kind = .operator →
      ∃ op, ComparisonOperator.ofSymbol? t.text = some op := by
  intro h
  have hmem : (⟨.operator, "li\u212ae", 24⟩ : Token) ∈ scan oddText := by decide +kernel
  obtain ⟨op, hop⟩ := h _ _ hmem rfl
  have hnone : ComparisonOperator.ofSymbol? "li\u212ae" = none := by decide +kernel
  cases hnone.symm.trans hop

end ItemSql.Token
