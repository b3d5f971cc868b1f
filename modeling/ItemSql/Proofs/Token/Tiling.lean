import ItemSql.Proofs.Token.Symbol

/-!
# Tokens tile the text

No part of a statement is lost, read twice or split in the wrong place: its tokens, with the white
space between them, are the text again. A *piece* is a token with the gap before it. `Tiles` says
that pieces stand one behind the other from an offset on, and it is what one token adds that has to
be checked; the statements about all tokens are inductions on it.

Offsets count bytes while the scanner counts characters, so nothing here follows from lengths of
lists alone.
-/

namespace ItemSql.Token

/-- Whether a text is white space throughout. -/
def IsGap (text : String) : Prop :=
  ∀ c ∈ text.toList, Text.isBlank c = true

/-- The text of tokens, each behind the gap before it. -/
def layout : List (String × Token) → String
  | [] => ""
  | (gap, t) :: rest => gap ++ t.text ++ layout rest

/-- Pieces that stand one behind the other from an offset on. No token is empty, begins with white
space or ends the input. -/
inductive Tiles : Nat → List (String × Token) → Prop
  | nil (offset : Nat) : Tiles offset []
  | cons {offset : Nat} {gap : String} {t : Token} {rest : List (String × Token)}
      (hgap : IsGap gap) (hkind : t.kind ≠ .endOfInput)
      (htext : ∃ c cs, t.text.toList = c :: cs ∧ Text.isBlank c = false)
      (hoffset : t.offset = offset + gap.utf8ByteSize)
      (hrest : Tiles (t.offset + t.text.utf8ByteSize) rest) : Tiles offset ((gap, t) :: rest)

theorem isGap_empty : IsGap "" := by
  intro c hc
  simp at hc

theorem isGap_cons {c : Char} {gap : String} (hc : Text.isBlank c = true) (hgap : IsGap gap) :
    IsGap (String.singleton c ++ gap) := by
  intro d hd
  rw [String.toList_append, String.toList_singleton, List.singleton_append] at hd
  rcases List.mem_cons.mp hd with rfl | hd
  · exact hc
  · exact hgap d hd

/-! ## The scanner tiles -/

/-- White space before tiled text goes to the first gap, or to the margin if there is no token. -/
private theorem exists_tiles_blank {c : Char} {offset : Nat} {pieces : List (String × Token)}
    {margin : String} (hc : Text.isBlank c = true) (hmargin : IsGap margin)
    (h : Tiles (offset + c.utf8Size) pieces) :
    ∃ pieces' margin', Tiles offset pieces' ∧ IsGap margin' ∧
      layout pieces' ++ margin' = String.singleton c ++ (layout pieces ++ margin) ∧
      pieces'.map Prod.snd = pieces.map Prod.snd := by
  cases h with
  | nil =>
    exact ⟨[], String.singleton c ++ margin, .nil offset, isGap_cons hc hmargin, by simp [layout],
      rfl⟩
  | @cons _ gap t rest hgap hkind htext hoffset hrest =>
    -- The first token stays where it is; its gap begins one character earlier.
    have hoffset' : t.offset = offset + (String.singleton c ++ gap).utf8ByteSize := by
      rw [hoffset, String.utf8ByteSize_append, String.utf8ByteSize_singleton, Nat.add_assoc]
    exact ⟨(String.singleton c ++ gap, t) :: rest, margin,
      .cons (isGap_cons hc hgap) hkind htext hoffset' hrest, hmargin,
      by simp [layout, String.append_assoc], rfl⟩

theorem exists_tiles_scanFrom (cs : List Char) : ∀ offset, ∃ pieces margin,
    Tiles offset pieces ∧ IsGap margin ∧ String.ofList cs = layout pieces ++ margin ∧
      scanFrom 0 offset cs = pieces.map Prod.snd ++
        [⟨.endOfInput, "", offset + (String.ofList cs).utf8ByteSize⟩] := by
  induction cs using cutInduction with
  | nil =>
    intro offset
    exact ⟨[], "", .nil offset, isGap_empty, rfl, rfl⟩
  | blank c cs hc ih =>
    intro offset
    obtain ⟨pieces, margin, htiles, hmargin, htext, hscan⟩ := ih (offset + c.utf8Size)
    obtain ⟨pieces', margin', htiles', hmargin', htext', htokens⟩ :=
      exists_tiles_blank hc hmargin htiles
    refine ⟨pieces', margin', htiles', hmargin', ?_, ?_⟩
    · rw [htext', ← htext, String.ofList_cons]
    · rw [scanFrom_blank offset cs hc, hscan, htokens, utf8ByteSize_ofList_cons, Nat.add_assoc]
  | token c cs hc ih =>
    intro offset
    obtain ⟨pieces, margin, htiles, hmargin, htext, hscan⟩ :=
      ih (offset + (cutText c cs).utf8ByteSize)
    have hcut : String.ofList (c :: cs) = cutText c cs ++ String.ofList (cutRest c cs) := by
      rw [← cutText_append_cutRest, String.ofList_append, String.ofList_toList]
    have hoffset : offset = offset + "".utf8ByteSize := by simp
    refine ⟨("", ⟨(measure c cs).1, cutText c cs, offset⟩) :: pieces, margin,
      .cons isGap_empty (measured c cs).ne_endOfInput ⟨c, _, toList_cutText c cs, hc⟩ hoffset
        htiles, hmargin, ?_, ?_⟩
    · rw [hcut, htext, layout, String.empty_append, String.append_assoc]
    · rw [scanFrom_token offset cs hc, hscan, hcut, String.utf8ByteSize_append, Nat.add_assoc]
      rfl

/-! ## Where tiles stand -/

variable {offset : Nat} {pieces : List (String × Token)}

/-- A token stands behind everything before it. -/
theorem Tiles.offset_eq (h : Tiles offset pieces) {before after : List (String × Token)}
    {gap : String} {t : Token} (hsplit : pieces = before ++ (gap, t) :: after) :
    t.offset = offset + (layout before ++ gap).utf8ByteSize := by
  induction h generalizing before with
  | nil => simp at hsplit
  | @cons offset gap₀ t₀ rest _ _ _ hoffset _ ih =>
    cases before with
    | nil =>
      obtain ⟨hhead, -⟩ := List.cons.inj hsplit
      obtain ⟨rfl, rfl⟩ := Prod.mk.inj hhead
      rw [hoffset, layout, String.empty_append]
    | cons piece before =>
      obtain ⟨rfl, htail⟩ := List.cons.inj hsplit
      rw [ih htail, hoffset, layout]
      simp only [String.utf8ByteSize_append]
      omega

theorem layout_append (before after : List (String × Token)) :
    layout (before ++ after) = layout before ++ layout after := by
  induction before with
  | nil => rw [List.nil_append, layout, String.empty_append]
  | cons piece before ih =>
    obtain ⟨gap, t⟩ := piece
    rw [List.cons_append, layout, layout, ih, String.append_assoc, String.append_assoc,
      String.append_assoc]

theorem Tiles.mem (h : Tiles offset pieces) {t : Token} (ht : t ∈ pieces.map Prod.snd) :
    t.kind ≠ .endOfInput ∧ ∃ c cs, t.text.toList = c :: cs ∧ Text.isBlank c = false := by
  induction h with
  | nil => simp at ht
  | cons _ hkind htext _ _ ih =>
    rcases List.mem_cons.mp ht with rfl | ht
    · exact ⟨hkind, htext⟩
    · exact ih ht

theorem Tiles.isGap_of_mem (h : Tiles offset pieces) {gap : String}
    (hgap : gap ∈ pieces.map Prod.fst) : IsGap gap := by
  induction h with
  | nil => simp at hgap
  | cons hgap₀ _ _ _ _ ih =>
    rcases List.mem_cons.mp hgap with rfl | hgap
    · exact hgap₀
    · exact ih hgap

/-- No token is empty in bytes either. -/
theorem Tiles.utf8ByteSize_pos (h : Tiles offset pieces) {t : Token}
    (ht : t ∈ pieces.map Prod.snd) : 0 < t.text.utf8ByteSize := by
  obtain ⟨-, c, cs, htext, -⟩ := h.mem ht
  have hpos := c.utf8Size_pos
  rw [← String.ofList_toList (s := t.text), htext, utf8ByteSize_ofList_cons]
  omega

theorem Tiles.stop_le (h : Tiles offset pieces) {t : Token} (ht : t ∈ pieces.map Prod.snd) :
    t.offset + t.text.utf8ByteSize ≤ offset + (layout pieces).utf8ByteSize := by
  obtain ⟨⟨gap, t⟩, hmem, rfl⟩ := List.mem_map.mp ht
  obtain ⟨before, after, hsplit⟩ := List.append_of_mem hmem
  rw [h.offset_eq hsplit, hsplit, layout_append, layout]
  simp only [String.utf8ByteSize_append]
  omega

theorem Tiles.le_offset (h : Tiles offset pieces) {t : Token} (ht : t ∈ pieces.map Prod.snd) :
    offset ≤ t.offset := by
  obtain ⟨⟨gap, t⟩, hmem, rfl⟩ := List.mem_map.mp ht
  obtain ⟨before, after, hsplit⟩ := List.append_of_mem hmem
  rw [h.offset_eq hsplit]
  exact Nat.le_add_right _ _

theorem Tiles.pairwise (h : Tiles offset pieces) :
    (pieces.map Prod.snd).Pairwise fun a b ↦ a.offset + a.text.utf8ByteSize ≤ b.offset := by
  induction h with
  | nil => exact .nil
  | cons _ _ _ _ hrest ih => exact .cons (fun _ hb ↦ hrest.le_offset hb) ih

theorem Tiles.length_le (h : Tiles offset pieces) :
    pieces.length ≤ (layout pieces).toList.length := by
  induction h with
  | nil => exact Nat.zero_le _
  | cons _ _ htext _ _ ih =>
    obtain ⟨c, cs, htext, -⟩ := htext
    rw [layout, String.toList_append, String.toList_append, htext]
    simp only [List.length_cons, List.length_append]
    omega

/-! ## Nothing is lost -/

/-- **Lossless scanning.** The tokens of a text, each behind its gap, and the margin at the end are
the text again. Every token is the slice of the text at its offset, begins behind the end of every
token before it, and stands between white space only; the last one, and no other, ends the input.
-/
theorem scan_lossless (source : String) : ∃ pieces margin,
    scan source = pieces.map Prod.snd ++ [⟨.endOfInput, "", source.utf8ByteSize⟩] ∧
      source = layout pieces ++ margin ∧
      (∀ gap ∈ margin :: pieces.map Prod.fst, ∀ c ∈ gap.toList, Text.isBlank c = true) ∧
      (∀ t ∈ pieces.map Prod.snd, t.kind ≠ .endOfInput ∧
        ∃ c cs, t.text.toList = c :: cs ∧ Text.isBlank c = false) ∧
      (∀ before gap t after, pieces = before ++ (gap, t) :: after →
        t.offset = (layout before ++ gap).utf8ByteSize) ∧
      (∀ t ∈ scan source, ∃ before after, source = before ++ t.text ++ after ∧
        before.utf8ByteSize = t.offset) ∧
      ((scan source).Pairwise fun a b ↦
        a.offset < b.offset ∧ a.offset + a.text.utf8ByteSize ≤ b.offset) ∧
      (scan source).length ≤ source.toList.length + 1 := by
  obtain ⟨pieces, margin, htiles, hmargin, htext, hscan⟩ := exists_tiles_scanFrom source.toList 0
  rw [String.ofList_toList] at htext
  rw [String.ofList_toList, Nat.zero_add] at hscan
  change scan source = _ at hscan
  have hslice : ∀ t ∈ pieces.map Prod.snd, ∃ before after, source = before ++ t.text ++ after ∧
      before.utf8ByteSize = t.offset := by
    intro t ht
    obtain ⟨⟨gap, t⟩, hmem, rfl⟩ := List.mem_map.mp ht
    obtain ⟨before, after, hsplit⟩ := List.append_of_mem hmem
    refine ⟨layout before ++ gap, layout after ++ margin, ?_, ?_⟩
    · rw [htext, hsplit, layout_append, layout]
      simp only [String.append_assoc]
    · rw [htiles.offset_eq hsplit, Nat.zero_add]
  have hend : ∀ t ∈ pieces.map Prod.snd,
      t.offset + t.text.utf8ByteSize ≤ source.utf8ByteSize := by
    intro t ht
    have hstop := htiles.stop_le ht
    have hsize := congrArg String.utf8ByteSize htext
    rw [String.utf8ByteSize_append] at hsize
    omega
  refine ⟨pieces, margin, hscan, htext, ?_, fun t ht ↦ htiles.mem ht, ?_, ?_, ?_, ?_⟩
  · intro gap hgap
    rcases List.mem_cons.mp hgap with rfl | hgap
    · exact hmargin
    · exact htiles.isGap_of_mem hgap
  · intro before gap t after hsplit
    rw [htiles.offset_eq hsplit, Nat.zero_add]
  · intro t ht
    rw [hscan] at ht
    rcases List.mem_append.mp ht with ht | ht
    · exact hslice t ht
    · -- The token at the end is the empty slice behind the whole text.
      obtain rfl := List.mem_singleton.mp ht
      exact ⟨source, "", by simp, rfl⟩
  · rw [hscan]
    refine List.pairwise_append.mpr ⟨?_, List.pairwise_singleton _ _, ?_⟩
    · refine htiles.pairwise.imp_of_mem fun ha _ hab ↦ ⟨?_, hab⟩
      have := htiles.utf8ByteSize_pos ha
      omega
    · intro a ha b hb
      obtain rfl := List.mem_singleton.mp hb
      have hpos := htiles.utf8ByteSize_pos ha
      have hstop := hend a ha
      dsimp only
      omega
  · have hlength := htiles.length_le
    have hchars := congrArg (fun s ↦ s.toList.length) htext
    simp only [String.toList_append, List.length_append] at hchars
    rw [hscan, List.length_append, List.length_map, List.length_singleton]
    omega

end ItemSql.Token
