import ItemSql.Text.Glyph

/-!
# Texts read back from their bytes

What is written in UTF-8 is read as the characters that it was written from, with no stray run among
them. The reader sees one byte at a time, so the proof follows a character through the reader: its
first byte opens it with the bits above the last six of each byte that is owed, and every byte
behind it adds six bits.
-/

namespace ItemSql.Text.Glyph

variable {v x : Nat} {rest : Bytes}

/-! ## Bytes as numbers -/

theorem first_eq (b : UInt8) : first b =
    if b.toNat < 0x80 then .whole (Char.ofNat b.toNat)
    else if b.toNat < 0xC2 then .strays
    else if b.toNat < 0xE0 then .opens ⟨[b], b.toNat - 0xC0, 0, 0x80, 0xBF⟩
    else if b.toNat = 0xE0 then .opens ⟨[b], 0, 1, 0xA0, 0xBF⟩
    else if b.toNat = 0xED then .opens ⟨[b], 0xD, 1, 0x80, 0x9F⟩
    else if b.toNat < 0xF0 then .opens ⟨[b], b.toNat - 0xE0, 1, 0x80, 0xBF⟩
    else if b.toNat = 0xF0 then .opens ⟨[b], 0, 2, 0x90, 0xBF⟩
    else if b.toNat < 0xF4 then .opens ⟨[b], b.toNat - 0xF0, 2, 0x80, 0xBF⟩
    else if b.toNat = 0xF4 then .opens ⟨[b], 4, 2, 0x80, 0x8F⟩
    else .strays := by
  simp only [first, UInt8.lt_iff_toNat_lt, ← UInt8.toNat_inj]
  rfl

/-- A byte that goes on a character, by the six bits that it holds. -/
def tail (x : Nat) : UInt8 :=
  UInt8.ofNat (x % 64 + 128)

theorem toNat_tail (x : Nat) : (tail x).toNat = x % 64 + 128 :=
  UInt8.toNat_ofNat_of_lt' (by have := Nat.mod_lt x (show 64 > 0 by decide); change _ < 256; omega)

theorem takes_tail {o : Opening} (hlow : o.low.toNat ≤ x % 64 + 128)
    (hhigh : x % 64 + 128 ≤ o.high.toNat) : o.takes (tail x) = true := by
  rw [Opening.takes, Bool.and_eq_true, decide_eq_true_iff, decide_eq_true_iff,
    UInt8.le_iff_toNat_le, UInt8.le_iff_toNat_le, toNat_tail]
  exact ⟨hlow, hhigh⟩

/-- Any byte that goes on a character may come where neither bound is narrowed. -/
theorem takes_tail_any {run : Bytes} {bits owed : Nat} :
    Opening.takes ⟨run, bits, owed, 0x80, 0xBF⟩ (tail x) = true := by
  have hx := Nat.mod_lt x (show 64 > 0 by decide)
  refine takes_tail ?_ ?_
  · change 128 ≤ _
    omega
  · change _ ≤ 191
    omega

/-! ## One byte after another -/

theorem read_none {b : UInt8} {c : Char} (h : first b = .whole c) :
    read none (b :: rest) = .char c :: read none rest := by
  rw [read]
  simp [h, abandoned]

theorem read_opens {b : UInt8} {o : Opening} (h : first b = .opens o) :
    read none (b :: rest) = read (some o) rest := by
  rw [read]
  simp [h, abandoned]

theorem read_last {o : Opening} (h : o.takes (tail x) = true) (howed : o.owed = 0) :
    read (some o) (tail x :: rest) =
      .char (Char.ofNat (o.bits * 64 + x % 64)) :: read none rest := by
  rw [read]
  simp [Option.filter, h, howed, toNat_tail]

theorem read_more {o : Opening} {n : Nat} (h : o.takes (tail x) = true) (howed : o.owed = n + 1) :
    read (some o) (tail x :: rest) =
      read (some ⟨o.run ++ [tail x], o.bits * 64 + x % 64, n, 0x80, 0xBF⟩) rest := by
  rw [read]
  simp [Option.filter, h, howed, toNat_tail]

/-! ## Whole characters -/

/-- A code point is none of the surrogates. -/
theorem toNat_valid (c : Char) : c.toNat < 0xD800 ∨ 0xDFFF < c.toNat ∧ c.toNat < 0x110000 :=
  c.valid

theorem read_two {c : Char} (hlow : 0x80 ≤ c.toNat) (hhigh : c.toNat < 0x800) :
    read none (UInt8.ofNat (c.toNat / 64 % 32 + 192) :: tail c.toNat :: rest) =
      .char c :: read none rest := by
  have hb : (UInt8.ofNat (c.toNat / 64 % 32 + 192)).toNat = c.toNat / 64 + 192 := by
    rw [UInt8.toNat_ofNat_of_lt' (by change _ < 256; omega)]
    omega
  have hfirst : first (UInt8.ofNat (c.toNat / 64 % 32 + 192)) =
      .opens ⟨[UInt8.ofNat (c.toNat / 64 % 32 + 192)], c.toNat / 64, 0, 0x80, 0xBF⟩ := by
    rw [first_eq, hb, if_neg (by omega), if_neg (by omega), if_pos (by omega),
      Nat.add_sub_cancel]
  have hbits : c.toNat / 64 * 64 + c.toNat % 64 = c.toNat := by omega
  rw [read_opens hfirst, read_last takes_tail_any rfl, hbits, Char.ofNat_toNat]

/-- The first byte of three opens a character, and the second byte is within its bounds. -/
theorem first_three {c : Char} (hlow : 0x800 ≤ c.toNat) (hhigh : c.toNat < 0x10000) :
    ∃ o, first (UInt8.ofNat (c.toNat / 4096 % 16 + 224)) = .opens o ∧ o.bits = c.toNat / 4096 ∧
      o.owed = 1 ∧ o.takes (tail (c.toNat / 64)) = true := by
  have hvalid := toNat_valid c
  have hb : (UInt8.ofNat (c.toNat / 4096 % 16 + 224)).toNat = c.toNat / 4096 + 224 := by
    rw [UInt8.toNat_ofNat_of_lt' (by change _ < 256; omega)]
    omega
  rw [first_eq, hb, if_neg (by omega), if_neg (by omega), if_neg (by omega)]
  by_cases he0 : c.toNat / 4096 + 224 = 0xE0
  · rw [if_pos he0]
    refine ⟨_, rfl, by change 0 = _; omega, rfl, takes_tail ?_ ?_⟩
    · change 160 ≤ _
      omega
    · change _ ≤ 191
      omega
  rw [if_neg he0]
  by_cases hed : c.toNat / 4096 + 224 = 0xED
  · rw [if_pos hed]
    refine ⟨_, rfl, by change 13 = _; omega, rfl, takes_tail ?_ ?_⟩
    · change 128 ≤ _
      omega
    · change _ ≤ 159
      omega
  rw [if_neg hed, if_pos (by omega)]
  exact ⟨_, rfl, Nat.add_sub_cancel _ _, rfl, takes_tail_any⟩

theorem read_three {c : Char} (hlow : 0x800 ≤ c.toNat) (hhigh : c.toNat < 0x10000) :
    read none (UInt8.ofNat (c.toNat / 4096 % 16 + 224) :: tail (c.toNat / 64) :: tail c.toNat ::
      rest) = .char c :: read none rest := by
  obtain ⟨o, hfirst, hbits, howed, htakes⟩ := first_three hlow hhigh
  have hvalue : (c.toNat / 4096 * 64 + c.toNat / 64 % 64) * 64 + c.toNat % 64 = c.toNat := by omega
  rw [read_opens hfirst, read_more htakes howed, read_last takes_tail_any rfl, hbits, hvalue,
    Char.ofNat_toNat]

/-- The first byte of four opens a character, and the second byte is within its bounds. -/
theorem first_four {c : Char} (hlow : 0x10000 ≤ c.toNat) :
    ∃ o, first (UInt8.ofNat (c.toNat / 262144 % 8 + 240)) = .opens o ∧
      o.bits = c.toNat / 262144 ∧ o.owed = 2 ∧ o.takes (tail (c.toNat / 4096)) = true := by
  have hvalid := toNat_valid c
  have hb : (UInt8.ofNat (c.toNat / 262144 % 8 + 240)).toNat = c.toNat / 262144 + 240 := by
    rw [UInt8.toNat_ofNat_of_lt' (by change _ < 256; omega)]
    omega
  rw [first_eq, hb, if_neg (by omega), if_neg (by omega), if_neg (by omega), if_neg (by omega),
    if_neg (by omega), if_neg (by omega)]
  by_cases hf0 : c.toNat / 262144 + 240 = 0xF0
  · rw [if_pos hf0]
    refine ⟨_, rfl, by change 0 = _; omega, rfl, takes_tail ?_ ?_⟩
    · change 144 ≤ _
      omega
    · change _ ≤ 191
      omega
  rw [if_neg hf0]
  by_cases hf4 : c.toNat / 262144 + 240 < 0xF4
  · rw [if_pos hf4]
    exact ⟨_, rfl, Nat.add_sub_cancel _ _, rfl, takes_tail_any⟩
  rw [if_neg hf4, if_pos (by omega)]
  refine ⟨_, rfl, by change 4 = _; omega, rfl, takes_tail ?_ ?_⟩
  · change 128 ≤ _
    omega
  · change _ ≤ 143
    omega

theorem read_four {c : Char} (hlow : 0x10000 ≤ c.toNat) :
    read none (UInt8.ofNat (c.toNat / 262144 % 8 + 240) :: tail (c.toNat / 4096) ::
      tail (c.toNat / 64) :: tail c.toNat :: rest) = .char c :: read none rest := by
  obtain ⟨o, hfirst, hbits, howed, htakes⟩ := first_four hlow
  have hvalue : ((c.toNat / 262144 * 64 + c.toNat / 4096 % 64) * 64 + c.toNat / 64 % 64) * 64 +
      c.toNat % 64 = c.toNat := by omega
  rw [read_opens hfirst, read_more htakes howed, read_more takes_tail_any rfl,
    read_last takes_tail_any rfl, hbits, hvalue, Char.ofNat_toNat]

theorem read_utf8EncodeChar (c : Char) :
    read none (String.utf8EncodeChar c ++ rest) = .char c :: read none rest := by
  rw [String.utf8EncodeChar]
  change read none ((if c.toNat ≤ 127 then _ else if c.toNat ≤ 2047 then _
    else if c.toNat ≤ 65535 then _ else _) ++ rest) = _
  by_cases h1 : c.toNat ≤ 127
  · rw [if_pos h1]
    have hb : (UInt8.ofNat c.toNat).toNat = c.toNat :=
      UInt8.toNat_ofNat_of_lt' (by change _ < 256; omega)
    have hfirst : first (UInt8.ofNat c.toNat) = .whole c := by
      rw [first_eq, hb, if_pos (by omega), Char.ofNat_toNat]
    exact read_none hfirst
  rw [if_neg h1]
  by_cases h2 : c.toNat ≤ 2047
  · rw [if_pos h2]
    exact read_two (by omega) (by omega)
  rw [if_neg h2]
  by_cases h3 : c.toNat ≤ 65535
  · rw [if_pos h3]
    exact read_three (by omega) (by omega)
  rw [if_neg h3]
  exact read_four (by omega)

theorem read_flatMap_utf8EncodeChar (cs : List Char) :
    read none (cs.flatMap String.utf8EncodeChar) = cs.map .char := by
  induction cs with
  | nil => rfl
  | cons c cs ih => rw [List.flatMap_cons, read_utf8EncodeChar, ih, List.map_cons]

/-- The glyphs of the bytes of a text are the characters of the text. -/
theorem ofBytes_utf8 (text : String) : ofBytes (utf8 text) = ofString text :=
  read_flatMap_utf8EncodeChar _

end ItemSql.Text.Glyph
