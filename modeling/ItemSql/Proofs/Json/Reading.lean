import ItemSql.Json.Decode
import ItemSql.Proofs.Json.Scalar
import ItemSql.Proofs.Text.Utf8

/-!
# Texts of the grammar are read

A text of the grammar is read as the tree that it spells. The text goes through three readers, and
there is one statement for each. The bytes of the text are its characters; the characters are the
lexemes of the tree, `parts`, whatever white space stands between them; and the lexemes are read as
the tree. So a decoder of a text is a decoder of its tree (`Document.bytes_eq`).

What strings hold does not matter to any of this, so the last two statements are about all texts
that have an outline (`Outlines.ofGlyphs`). Of the tree only one thing matters, that it is `Whole`:
lists are closed, and members are called by strings.

The reader counts steps, and a tree of `n` lexemes takes no more than `2 * n` of them.
-/

namespace ItemSql.Json

open Text (Glyph)

/-! ## The lexemes of a tree -/

namespace Node

mutual

/-- The lexemes of a tree. -/
def parts : Node → List Lexeme
  | .null => [.null]
  | .bool b => [.bool b]
  | .number n => [.number n]
  | .string text => [.string text]
  | .array items _ => .openBracket :: ([.comma].intercalate (itemParts items) ++ [.closeBracket])
  | .object members _ =>
    .openBrace :: ([.comma].intercalate (memberParts members) ++ [.closeBrace])
  | .cut c => [.cut c]

/-- The lexemes of each item. -/
def itemParts : List Node → List (List Lexeme)
  | [] => []
  | v :: vs => parts v :: itemParts vs

/-- The lexemes of each member. -/
def memberParts : List (Node × Node) → List (List Lexeme)
  | [] => []
  | (name, v) :: ms => (parts name ++ .colon :: parts v) :: memberParts ms

end

theorem itemParts_eq_map (items : List Node) : itemParts items = items.map parts := by
  induction items with
  | nil => rfl
  | cons v vs ih => rw [itemParts, ih, List.map_cons]

theorem memberParts_eq_map (members : List (Node × Node)) :
    memberParts members = members.map fun m ↦ m.1.parts ++ .colon :: m.2.parts := by
  induction members with
  | nil => rfl
  | cons m ms ih => rw [memberParts, ih, List.map_cons]

/-- A tree of which nothing is missing. -/
inductive Whole : Node → Prop
  | null : Whole .null
  | bool (b : Bool) : Whole (.bool b)
  | number (n : Numeral) : Whole (.number n)
  | string (text : Except Fault String) : Whole (.string text)
  | array {items : List Node} (h : ∀ v ∈ items, Whole v) : Whole (.array items .closed)
  | object {members : List (Except Fault String × Node)} (h : ∀ m ∈ members, Whole m.2) :
      Whole (.object (members.map called) .closed)

end Node

theorem intercalate_cons_cons {α : Type} (a : α) (xs ys : List α) (zs : List (List α)) :
    [a].intercalate (xs :: ys :: zs) = xs ++ a :: [a].intercalate (ys :: zs) := by
  rw [List.intercalate_cons_cons, List.append_assoc, List.singleton_append]

/-! ## From characters to lexemes -/

variable {b : List Char} {w rest : List Glyph} {node : Node}

theorem lexemesFrom_eq_drop (n : Nat) (gs : List Glyph) :
    lexemesFrom n gs = lexemesFrom 0 (gs.drop n) := by
  induction gs generalizing n with
  | nil => cases n <;> rfl
  | cons g gs ih =>
    cases n with
    | zero => rfl
    | succ n => exact ih n

theorem lexemesFrom_lexeme {g : Glyph} {l : Lexeme} {n : Nat} (hspace : isSpace g = false)
    (h : lexeme g rest = (l, n)) (hcut : ∀ c, l ≠ .cut c) :
    lexemesFrom 0 (g :: rest) = l :: lexemesFrom 0 (rest.drop n) := by
  rw [lexemesFrom, hspace, if_neg Bool.false_ne_true, h]
  cases l with
  | cut c => exact absurd rfl (hcut c)
  | _ => exact congrArg _ (lexemesFrom_eq_drop n rest)

/-- The lexemes of a text, if nothing goes on it that could belong to a number. -/
def Cuts (w : List Glyph) (ls : List Lexeme) : Prop :=
  ∀ rest, Halts rest → lexemesFrom 0 (w ++ rest) = ls ++ lexemesFrom 0 rest

theorem lexemesFrom_blank (h : Blank b) (rest : List Glyph) :
    lexemesFrom 0 (b.map .char ++ rest) = lexemesFrom 0 rest := by
  induction b with
  | nil => rfl
  | cons c b ih =>
    obtain ⟨hc, hb⟩ := List.forall_mem_cons.mp h
    have hspace : isSpace (.char c) = true := by
      simp only [List.mem_cons, List.not_mem_nil, or_false] at hc
      rcases hc with rfl | rfl | rfl | rfl <;> rfl
    rw [List.map_cons, List.cons_append, lexemesFrom, if_pos hspace, ih hb]

theorem Blank.halts (h : Blank b) (hrest : Halts rest) : Halts (b.map .char ++ rest) := by
  cases b with
  | nil => exact hrest
  | cons c b => exact .blank (h c List.mem_cons_self) _

/-! ### Numbers -/

/-- A digit begins a number. -/
theorem lexeme_digit {d : Char} (hd : d.isDigit = true) :
    lexeme (.char d) rest = ((numberLexeme false (.char d :: rest)).1,
      (numberLexeme false (.char d :: rest)).2 - 1) := by
  unfold lexeme
  split
  case h_12 c _ _ _ _ _ _ _ _ _ _ _ heq =>
    obtain rfl := Glyph.char.inj heq
    rw [if_pos hd]
  case h_13 heq => cases heq
  all_goals
    rename_i heq
    obtain rfl := Glyph.char.inj heq
    exact absurd hd (by decide)

theorem isSpace_digit {d : Char} (hd : d.isDigit = true) : isSpace (.char d) = false := by
  rw [Bool.eq_false_iff]
  intro h
  simp only [isSpace, Bool.or_eq_true, decide_eq_true_eq] at h
  rcases h with ((rfl | rfl) | rfl) | rfl <;> exact absurd hd (by decide)

theorem UnsignedText.exists_digit {negative : Bool} {w : List Char} {n : Numeral}
    (h : UnsignedText negative w n) : ∃ d w', w = d :: w' ∧ d.isDigit = true := by
  cases h with
  | mk hwhole =>
    cases hwhole with
    | zero => exact ⟨'0', _, rfl, rfl⟩
    | digits _ hds => exact ⟨_, _, rfl, hds.2 _ List.mem_cons_self⟩

theorem NumberText.cuts {w : List Char} {n : Numeral} (h : NumberText w n) :
    Cuts (w.map .char) [.number n] := by
  intro rest hrest
  cases h with
  | plain h =>
    have hnumeral := h.numeral hrest
    obtain ⟨d, w', rfl, hd⟩ := h.exists_digit
    have hlexeme : lexeme (.char d) (w'.map .char ++ rest) = (.number n, w'.length) := by
      rw [lexeme_digit hd, ← List.cons_append, ← List.map_cons, numberLexeme, hnumeral]
      rfl
    rw [List.map_cons, List.cons_append, lexemesFrom_lexeme (isSpace_digit hd) hlexeme nofun,
      List.drop_left' (List.length_map _)]
    rfl
  | @negative w' _ h =>
    have hlexeme : lexeme (.char '-') (w'.map .char ++ rest) = (.number n, w'.length) := by
      change numberLexeme true _ = _
      rw [numberLexeme, h.numeral hrest]
    rw [List.map_cons, List.cons_append, lexemesFrom_lexeme rfl hlexeme nofun,
      List.drop_left' (List.length_map _)]
    rfl

/-! ### Strings and marks -/

theorem Quotes.cuts {text : Except Fault String} (h : Quotes w text) :
    Cuts (.char '"' :: (w ++ [.char '"'])) [.string text] := by
  intro rest _
  have hlexeme : lexeme (.char '"') (w ++ .char '"' :: rest) = (.string text, w.length + 1) :=
    h.stringLexeme rest
  have hdrop : (w ++ .char '"' :: rest).drop (w.length + 1) = rest := by
    rw [List.append_cons]
    exact List.drop_left' (by simp)
  rw [List.cons_append, List.append_assoc, List.singleton_append,
    lexemesFrom_lexeme rfl hlexeme nofun, hdrop]
  rfl

/-- A character that is a lexeme of its own and ends a number before it. -/
structure Mark (c : Char) (l : Lexeme) : Prop where
  lexemesFrom (rest : List Glyph) : lexemesFrom 0 (.char c :: rest) = l :: lexemesFrom 0 rest
  halts (rest : List Glyph) : Halts (.char c :: rest)

theorem mark_comma : Mark ',' .comma :=
  ⟨fun _ ↦ lexemesFrom_lexeme rfl rfl nofun, fun _ ↦ ⟨rfl, rfl, rfl⟩⟩

theorem mark_colon : Mark ':' .colon :=
  ⟨fun _ ↦ lexemesFrom_lexeme rfl rfl nofun, fun _ ↦ ⟨rfl, rfl, rfl⟩⟩

theorem mark_openBracket : Mark '[' .openBracket :=
  ⟨fun _ ↦ lexemesFrom_lexeme rfl rfl nofun, fun _ ↦ ⟨rfl, rfl, rfl⟩⟩

theorem mark_closeBracket : Mark ']' .closeBracket :=
  ⟨fun _ ↦ lexemesFrom_lexeme rfl rfl nofun, fun _ ↦ ⟨rfl, rfl, rfl⟩⟩

theorem mark_openBrace : Mark '\x7b' .openBrace :=
  ⟨fun _ ↦ lexemesFrom_lexeme rfl rfl nofun, fun _ ↦ ⟨rfl, rfl, rfl⟩⟩

theorem mark_closeBrace : Mark '\x7d' .closeBrace :=
  ⟨fun _ ↦ lexemesFrom_lexeme rfl rfl nofun, fun _ ↦ ⟨rfl, rfl, rfl⟩⟩

/-! ### Lists and values -/

namespace Cuts

variable {w' : List Glyph} {ls ls' : List Lexeme} {c c' : Char} {l l' : Lexeme}

/-- A mark between two texts stands between their lexemes. -/
theorem join (h : Cuts w ls) (hc : Mark c l) (h' : Cuts w' ls') :
    Cuts (w ++ .char c :: w') (ls ++ l :: ls') := by
  intro rest hrest
  rw [List.append_assoc, List.cons_append, h _ (hc.halts _), hc.lexemesFrom, h' rest hrest,
    List.append_assoc, List.cons_append]

/-- Brackets around a text stand around its lexemes. -/
theorem bracket (h : Cuts w ls) (hc : Mark c l) (hc' : Mark c' l') :
    Cuts (.char c :: (w ++ [.char c'])) (l :: (ls ++ [l'])) := by
  intro rest _
  rw [List.cons_append, hc.lexemesFrom, List.append_assoc, List.singleton_append,
    h _ (hc'.halts _), hc'.lexemesFrom, List.cons_append, List.append_assoc, List.singleton_append]

theorem intercalate {pieces : List (List Glyph × List Lexeme)} (h : ∀ p ∈ pieces, Cuts p.1 p.2) :
    Cuts ([.char ','].intercalate (pieces.map Prod.fst))
      ([.comma].intercalate (pieces.map Prod.snd)) := by
  induction pieces with
  | nil =>
    intro rest _
    rfl
  | cons p ps ih =>
    obtain ⟨hp, hps⟩ := List.forall_mem_cons.mp h
    cases ps with
    | nil =>
      rw [List.map_singleton, List.map_singleton, List.intercalate_singleton,
        List.intercalate_singleton]
      exact hp
    | cons q qs =>
      have hmore := hp.join mark_comma (ih hps)
      rwa [List.map_cons, List.map_cons, ← intercalate_cons_cons, ← intercalate_cons_cons] at hmore

end Cuts

theorem Blank.cuts (h : Blank b) : Cuts (b.map .char) [] := by
  intro rest _
  exact lexemesFrom_blank h rest

theorem Outlines.cuts (h : Outlines w node) : Cuts w node.parts := by
  induction h with
  | blank hbefore hafter _ ih =>
    intro rest hrest
    rw [List.append_assoc, lexemesFrom_blank hbefore, List.append_assoc, ih _ (hafter.halts hrest),
      lexemesFrom_blank hafter]
  | null =>
    intro rest _
    rfl
  | bool b =>
    intro rest _
    cases b <;> rfl
  | number h => exact h.cuts
  | string h => exact h.cuts
  | emptyArray h => exact Cuts.bracket h.cuts mark_openBracket mark_closeBracket
  | emptyObject h => exact Cuts.bracket h.cuts mark_openBrace mark_closeBrace
  | @array items _ _ ih =>
    have hitems := @Cuts.intercalate (items.map fun i ↦ (i.1, i.2.parts))
      (List.forall_mem_map.mpr ih)
    rw [List.map_map, List.map_map] at hitems
    rw [Node.parts, Node.itemParts_eq_map, List.map_map]
    exact hitems.bracket mark_openBracket mark_closeBracket
  | @object members _ _ _ ihnames ihvalues =>
    have hmembers := @Cuts.intercalate
      (members.map fun m ↦ (m.text, m.node.1.parts ++ .colon :: m.node.2.parts))
      (List.forall_mem_map.mpr fun m hm ↦ (ihnames m hm).join mark_colon (ihvalues m hm))
    rw [List.map_map, List.map_map] at hmembers
    rw [Node.parts, Node.memberParts_eq_map, List.map_map]
    exact hmembers.bracket mark_openBrace mark_closeBrace

/-! ## From lexemes to trees -/

/-- A value does not begin with the bracket that would close an array. -/
theorem Node.exists_parts_eq (v : Node) : ∃ l ls, v.parts = l :: ls ∧ l ≠ .closeBracket := by
  cases v <;> exact ⟨_, _, rfl, by rintro ⟨⟩⟩

theorem Node.one_le_of_le {v : Node} {steps : Nat} (h : 2 * v.parts.length ≤ steps) :
    1 ≤ steps := by
  obtain ⟨l, ls, hparts, -⟩ := v.exists_parts_eq
  rw [hparts, List.length_cons] at h
  omega

/-- The lexemes of the tree are read as the tree, whatever stands behind them. -/
def Grows (v : Node) : Prop :=
  ∀ {steps : Nat} {rest : List Lexeme}, 2 * v.parts.length ≤ steps →
    Node.read steps (v.parts ++ rest) = (v, rest)

section

variable {steps : Nat} {rest : List Lexeme}

theorem intercalate_parts_cons (v : Node) (ps : List (List Lexeme)) :
    ∃ l ls, [Lexeme.comma].intercalate (v.parts :: ps) = l :: ls ∧ l ≠ .closeBracket := by
  obtain ⟨l, ls, hparts, hl⟩ := v.exists_parts_eq
  cases ps with
  | nil => exact ⟨l, ls, by rw [List.intercalate_singleton, hparts], hl⟩
  | cons p ps => exact ⟨l, _, by rw [intercalate_cons_cons, hparts, List.cons_append], hl⟩

theorem readItems_last {item : Node} {ls : List Lexeme}
    (h : Node.read steps ls = (item, .closeBracket :: rest)) :
    Node.readItems (steps + 1) ls = ([item], .closed, rest) := by
  rw [Node.readItems, h]

theorem readItems_more {item : Node} {l : Lexeme} {ls ms : List Lexeme} (hl : l ≠ .closeBracket)
    (h : Node.read steps ls = (item, .comma :: l :: ms)) :
    Node.readItems (steps + 1) ls = (item :: (Node.readItems steps (l :: ms)).1,
      (Node.readItems steps (l :: ms)).2) := by
  rw [Node.readItems, h]
  cases l with
  | closeBracket => exact absurd rfl hl
  | _ => rfl

theorem readItems_itemParts (steps : Nat) (rest : List Lexeme) {items : List Node}
    (hne : items ≠ []) (h : ∀ v ∈ items, Grows v)
    (hsteps : 2 * ([Lexeme.comma].intercalate (Node.itemParts items)).length < steps) :
    Node.readItems steps
        ([Lexeme.comma].intercalate (Node.itemParts items) ++ .closeBracket :: rest) =
      (items, .closed, rest) := by
  induction items generalizing steps with
  | nil => exact absurd rfl hne
  | cons v vs ih =>
    obtain ⟨steps, rfl⟩ := Nat.exists_eq_add_one_of_ne_zero (Nat.ne_zero_of_lt hsteps)
    obtain ⟨hv, hvs⟩ := List.forall_mem_cons.mp h
    cases vs with
    | nil =>
      rw [Node.itemParts, Node.itemParts, List.intercalate_singleton] at hsteps ⊢
      exact readItems_last (hv (by omega))
    | cons w ws =>
      obtain ⟨l, ls, hls, hl⟩ := intercalate_parts_cons w (Node.itemParts ws)
      have hmore := @ih steps (List.cons_ne_nil _ _) hvs
      rw [Node.itemParts, hls, List.cons_append] at hmore
      rw [Node.itemParts, Node.itemParts, intercalate_cons_cons, hls, List.length_append,
        List.length_cons] at hsteps
      have hread : Node.read steps (v.parts ++ .comma :: l :: (ls ++ .closeBracket :: rest)) =
          (v, .comma :: l :: (ls ++ .closeBracket :: rest)) := hv (by omega)
      rw [Node.itemParts, Node.itemParts, intercalate_cons_cons, hls, List.append_assoc,
        List.cons_append, List.cons_append, readItems_more hl hread, hmore (by omega)]

theorem readMembers_last {name : Except Fault String} {value : Node} {ls : List Lexeme}
    (h : Node.read (steps + 1) ls = (value, .closeBrace :: rest)) :
    Node.readMembers (steps + 2) (.string name :: .colon :: ls) =
      ([called (name, value)], .closed, rest) := by
  rw [Node.readMembers, Node.read]
  dsimp only
  rw [h]
  rfl

theorem readMembers_more {name next : Except Fault String} {value : Node} {ls ms : List Lexeme}
    (h : Node.read (steps + 1) ls = (value, .comma :: .string next :: ms)) :
    Node.readMembers (steps + 2) (.string name :: .colon :: ls) =
      (called (name, value) :: (Node.readMembers (steps + 1) (.string next :: ms)).1,
        (Node.readMembers (steps + 1) (.string next :: ms)).2) := by
  rw [Node.readMembers, Node.read]
  dsimp only
  rw [h]
  rfl

/-- The lexemes of members. -/
def memberLexemes (members : List (Except Fault String × Node)) : List Lexeme :=
  [.comma].intercalate (Node.memberParts (members.map called))

theorem memberLexemes_singleton (m : Except Fault String × Node) :
    memberLexemes [m] = .string m.1 :: .colon :: m.2.parts :=
  List.intercalate_singleton

theorem memberLexemes_cons_cons (m m' : Except Fault String × Node)
    (ms : List (Except Fault String × Node)) :
    memberLexemes (m :: m' :: ms) =
      .string m.1 :: .colon :: (m.2.parts ++ .comma :: memberLexemes (m' :: ms)) :=
  intercalate_cons_cons _ _ _ _

theorem exists_memberLexemes_eq (m : Except Fault String × Node)
    (ms : List (Except Fault String × Node)) :
    ∃ ls, memberLexemes (m :: ms) = .string m.1 :: ls := by
  cases ms with
  | nil => exact ⟨_, memberLexemes_singleton m⟩
  | cons m' ms => exact ⟨_, memberLexemes_cons_cons m m' ms⟩

theorem readMembers_memberLexemes (steps : Nat) (rest : List Lexeme)
    {members : List (Except Fault String × Node)} (hne : members ≠ [])
    (h : ∀ m ∈ members, Grows m.2) (hsteps : 2 * (memberLexemes members).length < steps) :
    Node.readMembers steps (memberLexemes members ++ .closeBrace :: rest) =
      (members.map called, .closed, rest) := by
  induction members generalizing steps with
  | nil => exact absurd rfl hne
  | cons m ms ih =>
    obtain ⟨hv, hms⟩ := List.forall_mem_cons.mp h
    cases ms with
    | nil =>
      rw [memberLexemes_singleton, List.length_cons, List.length_cons] at hsteps
      obtain ⟨steps, rfl⟩ := Nat.exists_eq_add_of_le' (show 2 ≤ steps by omega)
      rw [memberLexemes_singleton]
      exact readMembers_last (hv (by omega))
    | cons m' ms =>
      obtain ⟨ls, hls⟩ := exists_memberLexemes_eq m' ms
      rw [memberLexemes_cons_cons, List.length_cons, List.length_cons, List.length_append,
        List.length_cons] at hsteps
      obtain ⟨steps, rfl⟩ := Nat.exists_eq_add_of_le' (show 2 ≤ steps by omega)
      have hmore := @ih (steps + 1) (List.cons_ne_nil _ _) hms (by omega)
      rw [hls, List.cons_append] at hmore
      have hread : Node.read (steps + 1)
          (m.2.parts ++ .comma :: .string m'.1 :: (ls ++ .closeBrace :: rest)) =
          (m.2, .comma :: .string m'.1 :: (ls ++ .closeBrace :: rest)) :=
        hv (by omega)
      rw [memberLexemes_cons_cons, List.cons_append, List.cons_append, List.append_assoc, hls,
        List.cons_append, List.cons_append, readMembers_more hread, hmore]
      rfl

theorem read_openBracket {l : Lexeme} {ls : List Lexeme} (hl : l ≠ .closeBracket) :
    Node.read (steps + 1) (.openBracket :: l :: ls) =
      (.array (Node.readItems steps (l :: ls)).1 (Node.readItems steps (l :: ls)).2.1,
        (Node.readItems steps (l :: ls)).2.2) := by
  cases l with
  | closeBracket => exact absurd rfl hl
  | _ => rfl

theorem read_openBrace {l : Lexeme} {ls : List Lexeme} (hl : l ≠ .closeBrace) :
    Node.read (steps + 1) (.openBrace :: l :: ls) =
      (.object (Node.readMembers steps (l :: ls)).1 (Node.readMembers steps (l :: ls)).2.1,
        (Node.readMembers steps (l :: ls)).2.2) := by
  cases l with
  | closeBrace => exact absurd rfl hl
  | _ => rfl

theorem Node.Whole.grows (h : node.Whole) : Grows node := by
  induction h with
  | null | bool | number | string =>
    intro steps rest hsteps
    obtain ⟨steps, rfl⟩ := Nat.exists_eq_add_of_le' (Node.one_le_of_le hsteps)
    rfl
  | @array items _ ih =>
    intro steps rest hsteps
    obtain ⟨steps, rfl⟩ := Nat.exists_eq_add_of_le' (Node.one_le_of_le hsteps)
    cases items with
    | nil => rfl
    | cons i is =>
      rw [Node.parts, List.length_cons, List.length_append, List.length_singleton] at hsteps
      have hitems := readItems_itemParts steps rest (List.cons_ne_nil i is) ih (by omega)
      obtain ⟨l, ls, hls, hl⟩ := intercalate_parts_cons i (Node.itemParts is)
      rw [Node.itemParts, hls, List.cons_append] at hitems
      rw [Node.parts, Node.itemParts, hls, List.cons_append, List.append_assoc, List.cons_append,
        List.singleton_append, read_openBracket hl, hitems]
  | @object members _ ih =>
    intro steps rest hsteps
    obtain ⟨steps, rfl⟩ := Nat.exists_eq_add_of_le' (Node.one_le_of_le hsteps)
    cases members with
    | nil => rfl
    | cons m ms =>
      rw [Node.parts, ← memberLexemes, List.length_cons, List.length_append,
        List.length_singleton] at hsteps
      have hmembers := readMembers_memberLexemes steps rest (List.cons_ne_nil m ms) ih (by omega)
      obtain ⟨ls, hls⟩ := exists_memberLexemes_eq m ms
      rw [hls, List.cons_append] at hmembers
      rw [Node.parts, ← memberLexemes, hls, List.cons_append, List.append_assoc, List.cons_append,
        List.singleton_append, read_openBrace (by rintro ⟨⟩), hmembers]

end

/-! ## Whole texts -/

theorem Outlines.whole (h : Outlines w node) : node.Whole := by
  induction h with
  | blank _ _ _ ih => exact ih
  | null => exact .null
  | bool b => exact .bool b
  | number => exact .number _
  | string => exact .string _
  | emptyArray => exact .array (List.forall_mem_nil _)
  | array _ _ ih => exact .array (List.forall_mem_map.mpr ih)
  | emptyObject => exact .object (List.forall_mem_nil _)
  | @object members _ _ _ _ ih =>
    have hobject := @Node.Whole.object (members.map fun m ↦ (m.name, m.value))
      (List.forall_mem_map.mpr ih)
    rwa [List.map_map] at hobject

/-- The glyphs of a text are read as its tree, with nothing left behind it. -/
theorem Outlines.ofGlyphs (h : Outlines w node) : Node.ofGlyphs w = (node, true) := by
  have hlexemes : lexemes w = node.parts := by
    have hcuts := h.cuts [] .nil
    rwa [List.append_nil, lexemesFrom, List.append_nil] at hcuts
  have hgrows : Node.read (2 * node.parts.length + 2) (node.parts ++ []) = (node, []) :=
    h.whole.grows (by omega)
  rw [List.append_nil] at hgrows
  rw [Node.ofGlyphs, hlexemes]
  dsimp only
  rw [hgrows]
  rfl

theorem Node.itemsFault?_eq_none_iff {items : List Node} :
    Node.itemsFault? items = none ↔ ∀ v ∈ items, v.fault? = none := by
  induction items with
  | nil => exact iff_of_true rfl (List.forall_mem_nil _)
  | cons v vs ih => rw [Node.itemsFault?, Option.or_eq_none_iff, ih, List.forall_mem_cons]

theorem Node.membersFault?_eq_none_iff {members : List (Node × Node)} :
    Node.membersFault? members = none ↔ ∀ m ∈ members, m.2.fault? = none := by
  induction members with
  | nil => exact iff_of_true rfl (List.forall_mem_nil _)
  | cons m ms ih => rw [Node.membersFault?, Option.or_eq_none_iff, ih, List.forall_mem_cons]

theorem Node.fault?_array_iff {items : List Node} :
    (Node.array items .closed).fault? = none ↔ ∀ v ∈ items, v.fault? = none := by
  rw [Node.fault?, Ending.fault?, Option.or_none, Node.itemsFault?_eq_none_iff]

theorem Node.fault?_object_iff {members : List (Node × Node)} :
    (Node.object members .closed).fault? = none ↔ ∀ m ∈ members, m.2.fault? = none := by
  rw [Node.fault?, Ending.fault?, Option.or_none, Node.membersFault?_eq_none_iff]

/-- Nothing is wrong with a tree that is whole. -/
theorem Node.Whole.fault?_eq_none (h : node.Whole) : node.fault? = none := by
  induction h with
  | null | bool | number | string => rfl
  | array _ ih => exact Node.fault?_array_iff.mpr ih
  | object _ ih => exact Node.fault?_object_iff.mpr (List.forall_mem_map.mpr ih)

/-- Nothing is wrong with a document that is passed over. -/
theorem Spells.fault?_eq_none {w : List Char} (h : Spells w node) : node.fault? = none :=
  h.outlines.whole.fault?_eq_none

/-! ## Documents -/

variable {text : String}

/-- The bytes of a document are read as its tree, with nothing left behind it. -/
theorem Document.ofGlyphs (h : Document text node) :
    Node.ofGlyphs (Text.Glyph.ofBytes (Text.utf8 text)) = (node, true) := by
  rw [Text.Glyph.ofBytes_utf8, Text.Glyph.ofString, (Spells.outlines h).ofGlyphs]

/-- A document is decoded as its tree is. -/
theorem Document.bytes_eq {α : Type} (h : Document text node) (decode : Decoder α) :
    Decode.bytes decode (Text.utf8 text) = decode node := by
  rw [Decode.bytes, Decode.glyphs, h.ofGlyphs]
  dsimp only
  cases decode node <;> rfl

end ItemSql.Json
