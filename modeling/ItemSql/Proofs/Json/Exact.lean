import ItemSql.Proofs.Json.Lexing

/-!
# Only texts are read without a fault

A reader that finds no fault has read a text of the grammar, up to what strings hold, and the tree
that it answers is the outline of the text (`outlines_iff`). The way back goes through the lexemes.
A tree without a fault is whole and its lexemes are all that was read, by induction on the steps of
the reader. There is no cut among them, so they come from a text, and the text of the lexemes of a
tree has the tree for its outline.

What stands behind an element decides how a list goes on, so the reader of lists is inverted once
for each kind of list (`exists_of_readItems`, `exists_of_readMembers`).
-/

namespace ItemSql.Json

open Text (Glyph)

namespace Node

/-! ## From trees to lexemes -/

theorem eq_closed_of_fault? {ending : Ending} (h : ending.fault? = none) : ending = .closed := by
  cases ending with
  | closed => rfl
  | stopped f | dangling f => cases h

variable {steps : Nat} {ls rest : List Lexeme}

/-- A value that is read without a fault is whole, and its lexemes were read. -/
def ReadsValue (steps : Nat) : Prop :=
  ∀ {ls rest : List Lexeme} {v : Node}, read steps ls = (v, rest) → v.fault? = none →
    v.Whole ∧ ls = v.parts ++ rest

/-- Items that are read without a fault are whole, and their lexemes were read. -/
def ReadsItems (steps : Nat) : Prop :=
  ∀ {ls rest : List Lexeme} {items : List Node}, readItems steps ls = (items, .closed, rest) →
    itemsFault? items = none → items ≠ [] ∧ (∀ v ∈ items, v.Whole) ∧
      ls = [.comma].intercalate (itemParts items) ++ .closeBracket :: rest

/-- Members that are read without a fault are whole and called by strings, and their lexemes were
read. -/
def ReadsMembers (steps : Nat) : Prop :=
  ∀ {ls rest : List Lexeme} {ms : List (Node × Node)},
    readMembers steps ls = (ms, .closed, rest) → membersFault? ms = none →
      ∃ members : List (Except Fault String × Node), ms = members.map called ∧ members ≠ [] ∧
        (∀ m ∈ members, m.2.Whole) ∧ ls = memberLexemes members ++ .closeBrace :: rest

theorem ReadsItems.array (hitems : ReadsItems steps) {v : Node}
    (h : read (steps + 1) (.openBracket :: ls) = (v, rest)) (hclean : v.fault? = none) :
    v.Whole ∧ .openBracket :: ls = v.parts ++ rest := by
  cases ls with
  | nil =>
    obtain ⟨rfl, rfl⟩ := Prod.mk.inj h
    cases hclean
  | cons l ls =>
    by_cases hl : l = .closeBracket
    · subst hl
      obtain ⟨rfl, rfl⟩ := Prod.mk.inj h
      exact ⟨.array (List.forall_mem_nil _), rfl⟩
    · obtain ⟨items, ending, behind, hread⟩ : ∃ items ending behind,
          readItems steps (l :: ls) = (items, ending, behind) := ⟨_, _, _, rfl⟩
      rw [read_openBracket hl, hread] at h
      obtain ⟨rfl, rfl⟩ := Prod.mk.inj h
      rw [fault?, Option.or_eq_none_iff] at hclean
      obtain rfl := eq_closed_of_fault? hclean.2
      obtain ⟨-, hwhole, hls⟩ := hitems hread hclean.1
      refine ⟨.array hwhole, ?_⟩
      rw [hls, parts, List.cons_append, List.append_assoc, List.singleton_append]

theorem ReadsMembers.object (hmembers : ReadsMembers steps) {v : Node}
    (h : read (steps + 1) (.openBrace :: ls) = (v, rest)) (hclean : v.fault? = none) :
    v.Whole ∧ .openBrace :: ls = v.parts ++ rest := by
  cases ls with
  | nil =>
    obtain ⟨rfl, rfl⟩ := Prod.mk.inj h
    cases hclean
  | cons l ls =>
    by_cases hl : l = .closeBrace
    · subst hl
      obtain ⟨rfl, rfl⟩ := Prod.mk.inj h
      exact ⟨.object (List.forall_mem_nil _), rfl⟩
    · obtain ⟨ms, ending, behind, hread⟩ : ∃ ms ending behind,
          readMembers steps (l :: ls) = (ms, ending, behind) := ⟨_, _, _, rfl⟩
      rw [read_openBrace hl, hread] at h
      obtain ⟨rfl, rfl⟩ := Prod.mk.inj h
      rw [fault?, Option.or_eq_none_iff] at hclean
      obtain rfl := eq_closed_of_fault? hclean.2
      obtain ⟨members, rfl, -, hwhole, hls⟩ := hmembers hread hclean.1
      refine ⟨.object hwhole, ?_⟩
      rw [hls, parts, ← memberLexemes, List.cons_append, List.append_assoc, List.singleton_append]

theorem readsValue_succ (hitems : ReadsItems steps) (hmembers : ReadsMembers steps) :
    ReadsValue (steps + 1) := by
  intro ls rest v h hclean
  cases ls with
  | nil =>
    cases h
    cases hclean
  | cons l ls =>
  cases l with
  | null | bool | number | string =>
    obtain ⟨rfl, rfl⟩ := Prod.mk.inj h
    exact ⟨by constructor, rfl⟩
  | cut | closeBrace | closeBracket | colon | comma =>
    obtain ⟨rfl, rfl⟩ := Prod.mk.inj h
    cases hclean
  | openBracket => exact hitems.array h hclean
  | openBrace => exact hmembers.object h hclean

/-- Items that are closed: the first one, and then the bracket or more items behind a comma. -/
theorem exists_of_readItems {items : List Node}
    (h : readItems (steps + 1) ls = (items, .closed, rest)) :
    ∃ v behind more, read steps ls = (v, behind) ∧ items = v :: more ∧
      (more = [] ∧ behind = .closeBracket :: rest ∨
        ∃ ls', behind = .comma :: ls' ∧ readItems steps ls' = (more, .closed, rest)) := by
  rw [readItems] at h
  cases hread : read steps ls with
  | mk v behind =>
  rw [hread] at h
  dsimp only at h
  refine ⟨v, behind, items.tail, rfl, ?_⟩
  split at h
  · cases h
    exact ⟨rfl, .inl ⟨rfl, rfl⟩⟩
  · cases h
  · cases h
  · obtain ⟨rfl, htail⟩ := Prod.mk.inj h
    exact ⟨rfl, .inr ⟨_, rfl, Prod.ext rfl htail⟩⟩
  · cases h
  · cases h

/-- The value of a member, by the name and what stands behind it. -/
def valueBehind (steps : Nat) : Node → List Lexeme → Node × List Lexeme
  | .string _, .colon :: ls => read steps ls
  | .string _, [] => (absent .truncated, [])
  | .cut ⟨_, skipped, .openString⟩, ls => (absent skipped, ls)
  | _, ls => (absent .malformed, ls)

/-- If nothing is wrong with the value of a member, the member is called by a string. -/
theorem exists_of_valueBehind {name : Node} (h : (valueBehind steps name ls).1.fault? = none) :
    ∃ text ls', name = .string text ∧ ls = .colon :: ls' ∧
      read steps ls' = valueBehind steps name ls := by
  unfold valueBehind at h ⊢
  split at h
  · exact ⟨_, _, rfl, rfl, rfl⟩
  all_goals cases h

/-- Members that are closed: the first one, and then the bracket or more members behind a comma. -/
theorem exists_of_readMembers {ms : List (Node × Node)}
    (h : readMembers (steps + 1) ls = (ms, .closed, rest)) :
    ∃ name next value behind more, read steps ls = (name, next) ∧
      valueBehind steps name next = (value, behind) ∧ ms = (name, value) :: more ∧
      (more = [] ∧ behind = .closeBrace :: rest ∨
        ∃ ls', behind = .comma :: ls' ∧ readMembers steps ls' = (more, .closed, rest)) := by
  rw [readMembers] at h
  cases hname : read steps ls with
  | mk name next =>
  rw [hname] at h
  dsimp only at h
  refine ⟨name, next, _, _, ms.tail, rfl, rfl, ?_⟩
  split at h
  · rename_i hbehind
    cases h
    exact ⟨rfl, .inl ⟨rfl, hbehind⟩⟩
  · cases h
  · cases h
  · rename_i hbehind
    obtain ⟨rfl, htail⟩ := Prod.mk.inj h
    exact ⟨rfl, .inr ⟨_, hbehind, Prod.ext rfl htail⟩⟩
  · cases h
  · cases h

theorem readsItems_succ (hvalue : ReadsValue steps) (hitems : ReadsItems steps) :
    ReadsItems (steps + 1) := by
  intro ls rest items h hclean
  obtain ⟨v, behind, more, hread, rfl, hmore⟩ := exists_of_readItems h
  rw [itemsFault?, Option.or_eq_none_iff] at hclean
  obtain ⟨hv, rfl⟩ := hvalue hread hclean.1
  refine ⟨List.cons_ne_nil v more, ?_⟩
  obtain ⟨rfl, rfl⟩ | ⟨ls', rfl, hread'⟩ := hmore
  · exact ⟨List.forall_mem_singleton.mpr hv, by
      rw [itemParts, itemParts, List.intercalate_singleton]⟩
  · obtain ⟨hne, hwhole, rfl⟩ := hitems hread' hclean.2
    obtain ⟨v', more, rfl⟩ := List.exists_cons_of_ne_nil hne
    refine ⟨List.forall_mem_cons.mpr ⟨hv, hwhole⟩, ?_⟩
    have hparts : itemParts (v :: v' :: more) = v.parts :: v'.parts :: itemParts more := rfl
    rw [hparts, intercalate_cons_cons, List.append_assoc, List.cons_append]
    rfl

theorem readsMembers_succ (hvalue : ReadsValue steps) (hmembers : ReadsMembers steps) :
    ReadsMembers (steps + 1) := by
  intro ls rest ms h hclean
  obtain ⟨name, next, value, behind, more, hname, hvalued, rfl, hmore⟩ := exists_of_readMembers h
  rw [membersFault?, Option.or_eq_none_iff] at hclean
  have hcalled := @exists_of_valueBehind steps next name
  rw [hvalued] at hcalled
  obtain ⟨text, ls', rfl, rfl, hread⟩ := hcalled hclean.1
  obtain ⟨-, rfl⟩ := hvalue hname rfl
  obtain ⟨hv, rfl⟩ := hvalue hread hclean.1
  obtain ⟨rfl, rfl⟩ | ⟨ls', rfl, hread'⟩ := hmore
  · refine ⟨[(text, value)], rfl, List.cons_ne_nil _ _, List.forall_mem_singleton.mpr hv, ?_⟩
    rw [memberLexemes_singleton]
    rfl
  · obtain ⟨members, rfl, hne, hwhole, rfl⟩ := hmembers hread' hclean.2
    obtain ⟨m, members, rfl⟩ := List.exists_cons_of_ne_nil hne
    refine ⟨(text, value) :: m :: members, rfl, List.cons_ne_nil _ _,
      List.forall_mem_cons.mpr ⟨hv, hwhole⟩, ?_⟩
    rw [memberLexemes_cons_cons]
    simp [parts]

theorem reads (steps : Nat) : ReadsValue steps ∧ ReadsItems steps ∧ ReadsMembers steps := by
  induction steps with
  | zero =>
    refine ⟨?_, ?_, ?_⟩
    · intro ls rest v h hclean
      cases h
      cases hclean
    · intro ls rest items h
      cases h
    · intro ls rest ms h
      cases h
  | succ steps ih =>
    obtain ⟨hvalue, hitems, hmembers⟩ := ih
    exact ⟨readsValue_succ hitems hmembers, readsItems_succ hvalue hitems,
      readsMembers_succ hvalue hmembers⟩

end Node

/-! ## From lexemes to the text -/

section

variable {w gs : List Glyph} {l l' : Lexeme} {ls : List Lexeme} {node : Node}

/-- What has one lexeme has the outline of its text. -/
theorem Lexed.outlines (h : Lexed gs [l]) (hnode : ∀ w, LexemeText w l → Outlines w node) :
    Outlines gs node := by
  obtain ⟨u, w, v, rfl, hu, hw, hv⟩ := Lexed.split [] h
  obtain ⟨before, hbefore, rfl⟩ := hu.exists_blank
  obtain ⟨after, hafter, rfl⟩ := hv.exists_blank
  exact .blank hbefore hafter (hnode w hw)

theorem Lexed.outlines_string {text : Except Fault String} (h : Lexed gs [.string text]) :
    Outlines gs (.string text) :=
  h.outlines fun w hw ↦ by cases hw with | string h => exact .string h

theorem Lexed.exists_bracketed (h : Lexed gs (l :: (ls ++ [l']))) :
    ∃ before w u w' after, Blank before ∧ Blank after ∧ LexemeText w l ∧ Lexed u ls ∧
      LexemeText w' l' ∧ gs = before.map .char ++ (w ++ (u ++ w') ++ after.map .char) := by
  obtain ⟨u, w, v, rfl, hu, hw, hv⟩ := Lexed.split [] h
  obtain ⟨u', w', v', rfl, hu', hw', hv'⟩ := hv.split _
  obtain ⟨before, hbefore, rfl⟩ := hu.exists_blank
  obtain ⟨after, hafter, rfl⟩ := hv'.exists_blank
  exact ⟨before, w, u', w', after, hbefore, hafter, hw, hu', hw', by simp⟩

/-- Lists of lexemes with commas between them come from texts with commas between them. -/
theorem Lexed.exists_pieces {pieces : List (List Lexeme)} (hne : pieces ≠ [])
    (h : Lexed gs ([.comma].intercalate pieces)) :
    ∃ texts, gs = [.char ','].intercalate texts ∧ List.Forall₂ Lexed texts pieces := by
  induction pieces generalizing gs with
  | nil => exact absurd rfl hne
  | cons p ps ih =>
    cases ps with
    | nil =>
      rw [List.intercalate_singleton] at h
      exact ⟨[gs], List.intercalate_singleton.symm, .cons h .nil⟩
    | cons q qs =>
      rw [intercalate_cons_cons] at h
      obtain ⟨u, w, v, rfl, hu, hw, hv⟩ := h.split _
      obtain ⟨texts, rfl, htexts⟩ := ih (List.cons_ne_nil q qs) hv
      cases hw
      cases htexts with
      | cons ht hts => exact ⟨_, (intercalate_cons_cons _ _ _ _).symm, .cons hu (.cons ht hts)⟩

/-- Things that are made of related elements, one by one. -/
theorem exists_map_eq {α β γ : Type} {R : α → β → Prop} {P : γ → Prop} {f : γ → α} {g : γ → β}
    {as : List α} {bs : List β} (h : List.Forall₂ R as bs)
    (hmake : ∀ b ∈ bs, ∀ a, R a b → ∃ c, f c = a ∧ g c = b ∧ P c) :
    ∃ cs : List γ, cs.map f = as ∧ cs.map g = bs ∧ ∀ c ∈ cs, P c := by
  induction h with
  | nil => exact ⟨[], rfl, rfl, List.forall_mem_nil _⟩
  | @cons a b as bs hab _ ih =>
    obtain ⟨c, rfl, rfl, hc⟩ := hmake b List.mem_cons_self a hab
    obtain ⟨cs, rfl, rfl, hcs⟩ := ih fun b hb ↦ hmake b (List.mem_cons_of_mem _ hb)
    exact ⟨c :: cs, rfl, rfl, List.forall_mem_cons.mpr ⟨hc, hcs⟩⟩

theorem Lexed.exists_member {m : Except Fault String × Node}
    (hvalue : ∀ {gs : List Glyph}, Lexed gs m.2.parts → Outlines gs m.2)
    (h : Lexed gs (.string m.1 :: .colon :: m.2.parts)) :
    ∃ o : MemberOutline, o.text = gs ∧ (o.name, o.value) = m ∧
      Outlines o.nameText (.string o.name) ∧ Outlines o.valueText o.value := by
  obtain ⟨u, w, v, rfl, hu, hw, hv⟩ := Lexed.split [.string m.1] h
  cases hw
  exact ⟨⟨u, m.1, v, m.2⟩, rfl, rfl, hu.outlines_string, hvalue hv⟩

/-- The text of the lexemes of a whole tree has the tree for its outline. -/
theorem Node.Whole.outlines (h : node.Whole) (hgs : Lexed gs node.parts) : Outlines gs node := by
  induction h generalizing gs with
  | null => exact hgs.outlines fun w hw ↦ by cases hw; exact .null
  | bool b => exact hgs.outlines fun w hw ↦ by cases hw; exact .bool b
  | number n => exact hgs.outlines fun w hw ↦ by cases hw with | number h => exact .number h
  | string text => exact hgs.outlines_string
  | @array items _ ih =>
    obtain ⟨before, w, u, w', after, hbefore, hafter, hw, hu, hw', rfl⟩ := hgs.exists_bracketed
    cases hw
    cases hw'
    refine .blank hbefore hafter ?_
    cases items with
    | nil =>
      obtain ⟨b, hb, rfl⟩ := hu.exists_blank
      exact .emptyArray hb
    | cons i is =>
      rw [itemParts_eq_map] at hu
      obtain ⟨texts, rfl, htexts⟩ :=
        hu.exists_pieces (mt List.map_eq_nil_iff.mp (List.cons_ne_nil _ _))
      obtain ⟨made, rfl, hmade, houtlines⟩ := exists_map_eq (List.forall₂_map_right_iff.mp htexts)
        (P := fun c : List Glyph × Node ↦ Outlines c.1 c.2) (f := Prod.fst) (g := Prod.snd)
        fun v hv t ht ↦ ⟨(t, v), rfl, rfl, ih v hv ht⟩
      rw [← hmade]
      exact .array (by rintro rfl; cases hmade) houtlines
  | @object members _ ih =>
    obtain ⟨before, w, u, w', after, hbefore, hafter, hw, hu, hw', rfl⟩ := hgs.exists_bracketed
    cases hw
    cases hw'
    refine .blank hbefore hafter ?_
    cases members with
    | nil =>
      obtain ⟨b, hb, rfl⟩ := hu.exists_blank
      exact .emptyObject hb
    | cons m ms =>
      rw [memberParts_eq_map, List.map_map] at hu
      obtain ⟨texts, rfl, htexts⟩ :=
        hu.exists_pieces (mt List.map_eq_nil_iff.mp (List.cons_ne_nil _ _))
      obtain ⟨made, rfl, hmade, houtlines⟩ := exists_map_eq (List.forall₂_map_right_iff.mp htexts)
        (P := fun o : MemberOutline ↦ Outlines o.nameText (.string o.name) ∧
          Outlines o.valueText o.value)
        (f := MemberOutline.text) (g := fun o ↦ (o.name, o.value))
        fun m hm t ht ↦ Lexed.exists_member (ih m hm) ht
      rw [← hmade, List.map_map]
      exact .object (by rintro rfl; cases hmade) (fun o ho ↦ (houtlines o ho).1)
        fun o ho ↦ (houtlines o ho).2

theorem mem_intercalate {pieces : List (List Lexeme)} (h : l ∈ [l'].intercalate pieces) :
    l = l' ∨ ∃ p ∈ pieces, l ∈ p := by
  induction pieces with
  | nil => cases h
  | cons p ps ih =>
    cases ps with
    | nil =>
      rw [List.intercalate_singleton] at h
      exact .inr ⟨p, List.mem_cons_self, h⟩
    | cons q qs =>
      rw [intercalate_cons_cons, List.mem_append, List.mem_cons] at h
      obtain h | h | h := h
      · exact .inr ⟨p, List.mem_cons_self, h⟩
      · exact .inl h
      · exact (ih h).imp_right fun ⟨p', hp', hl⟩ ↦ ⟨p', List.mem_cons_of_mem p hp', hl⟩

theorem Node.Whole.cut_notMem (h : node.Whole) (c : Cut) : .cut c ∉ node.parts := by
  induction h with
  | null | bool | number | string => simp [parts]
  | array _ ih =>
    rw [parts, itemParts_eq_map]
    intro hmem
    simp only [List.mem_cons, List.mem_append, List.not_mem_nil, or_false, reduceCtorEq,
      false_or] at hmem
    obtain hcomma | ⟨p, hp, hcut⟩ := mem_intercalate hmem
    · cases hcomma
    · obtain ⟨v, hv, rfl⟩ := List.mem_map.mp hp
      exact ih v hv hcut
  | object _ ih =>
    rw [parts, memberParts_eq_map, List.map_map]
    intro hmem
    simp only [List.mem_cons, List.mem_append, List.not_mem_nil, or_false, reduceCtorEq,
      false_or] at hmem
    obtain hcomma | ⟨p, hp, hcut⟩ := mem_intercalate hmem
    · cases hcomma
    · obtain ⟨m, hm, rfl⟩ := List.mem_map.mp hp
      exact ih m hm (by simpa [called, parts] using hcut)

end

/-! ## Both ways -/

/-- A text has an outline exactly if it is read without a fault and with nothing left behind it. -/
theorem outlines_iff {gs : List Glyph} {node : Node} :
    Outlines gs node ↔ Node.ofGlyphs gs = (node, true) ∧ node.fault? = none := by
  constructor
  · exact fun h ↦ ⟨h.ofGlyphs, h.whole.fault?_eq_none⟩
  · rintro ⟨h, hclean⟩
    rw [Node.ofGlyphs] at h
    cases hread : Node.read (2 * (lexemes gs).length + 2) (lexemes gs) with
    | mk node' rest =>
    dsimp only at h
    rw [hread] at h
    obtain ⟨rfl, hrest⟩ := Prod.mk.inj h
    obtain rfl := List.isEmpty_iff.mp hrest
    obtain ⟨hwhole, hlexemes⟩ := (Node.reads _).1 hread hclean
    rw [List.append_nil] at hlexemes
    refine hwhole.outlines ?_
    rw [← hlexemes]
    refine lexed_lexemesFrom gs fun c hc ↦ hwhole.cut_notMem c ?_
    rwa [← hlexemes]

/-- A text has one outline at most. -/
theorem Outlines.unique {gs : List Glyph} {node node' : Node} (h : Outlines gs node)
    (h' : Outlines gs node') : node = node' :=
  (Prod.mk.inj (h.ofGlyphs.symm.trans h'.ofGlyphs)).1

/-- A decoder that takes no value with a fault takes the trees of texts. -/
theorem bytes_eq_ok_iff {α : Type} {decode : Decoder α}
    (hclean : ∀ node a, decode node = .ok a → node.fault? = none) {body : Text.Bytes} {a : α} :
    Decode.bytes decode body = .ok a ↔
      ∃ node, Outlines (Glyph.ofBytes body) node ∧ decode node = .ok a := by
  have hbytes {node : Node} {clean : Bool}
      (h : Node.ofGlyphs (Glyph.ofBytes body) = (node, clean)) :
      Decode.bytes decode body = .ok a ↔ decode node = .ok a ∧ clean = true := by
    rw [Decode.bytes, Decode.glyphs, h]
    dsimp only
    rw [bind_eq_ok_iff]
    cases clean with
    | true =>
      constructor
      · rintro ⟨b, hb, ⟨⟩⟩
        exact ⟨hb, rfl⟩
      · rintro ⟨hb, -⟩
        exact ⟨a, hb, rfl⟩
    | false => exact iff_of_false (by rintro ⟨b, -, ⟨⟩⟩) (by rintro ⟨-, ⟨⟩⟩)
  constructor
  · intro h
    cases hread : Node.ofGlyphs (Glyph.ofBytes body) with
    | mk node clean =>
    obtain ⟨ha, rfl⟩ := (hbytes hread).mp h
    exact ⟨node, outlines_iff.mpr ⟨hread, hclean node a ha⟩, ha⟩
  · rintro ⟨node, hbody, ha⟩
    exact (hbytes hbody.ofGlyphs).mpr ⟨ha, rfl⟩

end ItemSql.Json
