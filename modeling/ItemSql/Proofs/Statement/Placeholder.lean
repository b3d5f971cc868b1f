import ItemSql.Proofs.Binding
import ItemSql.Proofs.Statement.Parse

/-!
# Sentences have no placeholders

A placeholder is cut off a text as a symbol of no known class, and no rule of the grammar has a
place for such a symbol. So a text that is parsed has nothing to bind, and to run it without
parameters is to run it as it stands.
-/

namespace ItemSql.Statement

open Token Grammar

variable {w v : List Symbol}

/-- Every symbol has a known class. -/
def Known (w : List Symbol) : Prop :=
  ∀ s ∈ w, s.kind ≠ .unknown

@[simp] theorem known_nil : Known [] := by
  rintro s ⟨⟩

@[simp] theorem known_cons {s : Symbol} : Known (s :: w) ↔ s.kind ≠ .unknown ∧ Known w :=
  List.forall_mem_cons

@[simp] theorem known_append : Known (w ++ v) ↔ Known w ∧ Known v :=
  List.forall_mem_append

namespace Grammar

/-! ## Lists and expressions -/

theorem Keyword.known {word : String} {s : Symbol} (h : Keyword word s) : s.kind ≠ .unknown :=
  h.kind_ne (by decide)

theorem Literal.known {s : Symbol} {value : AttributeValue} (h : Literal s value) :
    s.kind ≠ .unknown := by
  cases h <;> simp

theorem Comma.known {s : Symbol} (h : Comma s) : s.kind ≠ .unknown := by
  rw [h]
  simp

theorem Conjunction.known {s : Symbol} (h : Conjunction s) : s.kind ≠ .unknown := by
  rcases h with h | h | h
  · exact h.known
  · exact h.known
  · rw [h]
    simp

theorem SepBy.known {α : Type} {separator : Symbol → Prop} {element : List Symbol → α → Prop}
    {as : List α} (h : SepBy separator element w as)
    (hseparator : ∀ s, separator s → s.kind ≠ .unknown) (helement : ∀ v a, element v a → Known v) :
    Known w := by
  induction h with
  | one ha => exact helement _ _ ha
  | more ha hs _ ih => simp [helement _ _ ha, hseparator _ hs, ih]

theorem Parenthesized.known {α : Type} {element : List Symbol → α → Prop} {as : List α}
    (h : Parenthesized element w as) (helement : ∀ v a, element v a → Known v) : Known w := by
  obtain ⟨has⟩ := h
  simp [has.known (fun _ hs ↦ hs.known) helement]

theorem Name.known {name : String} (h : Name w name) : Known w := by
  obtain ⟨name⟩ := h
  simp

theorem Value.known {value : AttributeValue} (h : Value w value) : Known w := by
  obtain ⟨hs⟩ := h
  simp [hs.known]

theorem Comparison.known {e : Expression} (h : Comparison w e) : Known w := by
  cases h with
  | sign _ hs => simp [hs.known]
  | between hk hlow hhigh => simp [hk.known, hlow.known, hhigh.known]

theorem Assignment.known {e : Expression} (h : Assignment w e) : Known w := by
  obtain ⟨hs⟩ := h
  simp [hs.known]

/-! ## Clauses -/

theorem Columns.known {names : List String} (h : Columns w names) : Known w := by
  cases h with
  | all => simp
  | unsaid => simp
  | listed hw => exact hw.known (fun _ hs ↦ hs.known) fun _ _ ha ↦ ha.known

theorem Limit.known {n? : Option Int32} (h : Limit w n?) : Known w := by
  cases h with
  | none => simp
  | some hk => simp [hk.known]

theorem Where.known {conditions : NameMap Condition} (h : Where w conditions) : Known w := by
  cases h with
  | unsaid => simp
  | clause hk hw =>
    exact known_cons.mpr ⟨hk.known, hw.known (fun _ hs ↦ hs.known) fun _ _ ha ↦ ha.known⟩

theorem Direction.known {forward : Bool} (h : Direction w forward) : Known w := by
  cases h with
  | unsaid => simp
  | ascending hk => simp [hk.known]
  | descending hk => simp [hk.known]

theorem Order.known {forward? : Option Bool} (h : Order w forward?) : Known w := by
  cases h with
  | unsaid => simp
  | order hk hl hw => simp [hk.known, hl.known, hw.known]

theorem Declared.known {d : Declaration} (h : Declared w d) : Known w := by
  cases h <;> simp

theorem Capacity.known {change : ProvisionedThroughput → ProvisionedThroughput}
    (h : Capacity w change) : Known w := by
  cases h <;> simp

theorem Throughput.known {throughput : ProvisionedThroughput} (h : Throughput w throughput) :
    Known w := by
  cases h with
  | unsaid => simp
  | asked hk hw => simp [hk.known, hw.known fun _ _ ha ↦ ha.known]

theorem Ending.known (h : Ending w) : Known w := by
  cases h <;> simp [endSymbol]

/-! ## Statements -/

theorem Select.known {r : Request} (h : Select w r) : Known w := by
  obtain ⟨hnames, hk, hearly, hconditions, horder, hlate, -⟩ := h
  simp [hnames.known, hk.known, hearly.known, hconditions.known, horder.known, hlate.known]

theorem Insert.known {r : Request} (h : Insert w r) : Known w := by
  obtain ⟨hk, hnames, hl, hvalues, -⟩ := h
  simp [hk.known, hnames.known fun _ _ ha ↦ ha.known, hl.known,
    hvalues.known fun _ _ ha ↦ ha.known]

theorem Update.known {r : Request} (h : Update w r) : Known w := by
  obtain ⟨hk, hupdates, hl, hkey⟩ := h
  simp [hk.known, hupdates.known (fun _ hs ↦ hs.known) fun _ _ ha ↦ ha.known, hl.known,
    hkey.known (fun _ hs ↦ hs.known) fun _ _ ha ↦ ha.known]

theorem Delete.known {r : Request} (h : Delete w r) : Known w := by
  obtain ⟨hk, hl, hkey⟩ := h
  simp [hk.known, hl.known, hkey.known (fun _ hs ↦ hs.known) fun _ _ ha ↦ ha.known]

theorem Drop.known {r : Request} (h : Drop w r) : Known w := by
  obtain ⟨hk⟩ := h
  simp [hk.known]

theorem Create.known {r : Request} (h : Create w r) : Known w := by
  obtain ⟨hk, hw, hv⟩ := h
  simp [hk.known, hw.known fun _ _ ha ↦ ha.known, hv.known]

theorem Whole.known {body : List Symbol → Request → Prop} {r : Request} (h : Whole body w r)
    (hbody : ∀ v r, body v r → Known v) : Known w := by
  obtain ⟨hw, he⟩ := h
  exact known_append.mpr ⟨hbody _ _ hw, he.known⟩

/-- No symbol of a sentence is of an unknown class. -/
theorem Sentence.known {r : Request} (h : Sentence w r) : Known w := by
  cases h with
  | select hk hw => exact known_cons.mpr ⟨hk.known, hw.known fun _ _ h ↦ h.known⟩
  | insert hk hw => exact known_cons.mpr ⟨hk.known, hw.known fun _ _ h ↦ h.known⟩
  | update hk hw => exact known_cons.mpr ⟨hk.known, hw.known fun _ _ h ↦ h.known⟩
  | create hk hw => exact known_cons.mpr ⟨hk.known, hw.known fun _ _ h ↦ h.known⟩
  | delete hk hw => exact known_cons.mpr ⟨hk.known, hw.known fun _ _ h ↦ h.known⟩
  | drop hk hw => exact known_cons.mpr ⟨hk.known, hw.known fun _ _ h ↦ h.known⟩

end Grammar

/-! ## Texts -/

/-- What is parsed has nothing to bind. -/
theorem bind_of_sentence {source : String} {r : Request}
    (h : Sentence (symbols (scan source)) r) : bind source [] = .ok source :=
  Binding.bind_eq_self fun hmem ↦ h.known _ hmem rfl

end ItemSql.Statement
