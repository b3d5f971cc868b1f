import ItemSql.Proofs.Text.Utf8
import Mathlib.Data.String.Basic
import Mathlib.Data.UInt

/-!
# Characters and bytes in order

Texts are compared by their characters here, and elsewhere by their bytes. There is no difference:
UTF-8 keeps the order of code points (`utf8_lt_iff`). A longer form begins with a greater byte than
any shorter one, and in forms of one length the bits of the code point stand in their own order.
-/

namespace ItemSql.Text

open Glyph (tail toNat_tail)

variable {n m : Nat} {xs ys rest rest' : Bytes}

/-- The bytes of a code point. -/
inductive Encodes (n : Nat) : Bytes → Prop
  | one (h : n < 0x80) : Encodes n [UInt8.ofNat n]
  | two (hlow : 0x80 ≤ n) (hhigh : n < 0x800) : Encodes n [UInt8.ofNat (n / 64 + 192), tail n]
  | three (hlow : 0x800 ≤ n) (hhigh : n < 0x10000) :
      Encodes n [UInt8.ofNat (n / 4096 + 224), tail (n / 64), tail n]
  | four (hlow : 0x10000 ≤ n) (hhigh : n < 0x110000) :
      Encodes n [UInt8.ofNat (n / 262144 + 240), tail (n / 4096), tail (n / 64), tail n]

theorem encodes_utf8EncodeChar (c : Char) : Encodes c.toNat (String.utf8EncodeChar c) := by
  have hvalid := Glyph.toNat_valid c
  rw [String.utf8EncodeChar]
  change Encodes c.toNat (if c.toNat ≤ 127 then _ else if c.toNat ≤ 2047 then
    [UInt8.ofNat (c.toNat / 64 % 32 + 192), _] else if c.toNat ≤ 65535 then
      [UInt8.ofNat (c.toNat / 4096 % 16 + 224), _, _] else
        [UInt8.ofNat (c.toNat / 262144 % 8 + 240), _, _, _])
  split
  · exact .one (by omega)
  split
  · rw [Nat.mod_eq_of_lt (a := c.toNat / 64) (by omega)]
    exact .two (by omega) (by omega)
  split
  · rw [Nat.mod_eq_of_lt (a := c.toNat / 4096) (by omega)]
    exact .three (by omega) (by omega)
  · rw [Nat.mod_eq_of_lt (a := c.toNat / 262144) (by omega)]
    exact .four (by omega) (by omega)

theorem Encodes.ne_nil (h : Encodes n xs) : xs ≠ [] := by
  cases h <;> exact List.cons_ne_nil _ _

theorem cons_lt_cons_iff {b b' : UInt8} :
    b :: rest < b' :: rest' ↔ b.toNat < b'.toNat ∨ b.toNat = b'.toNat ∧ rest < rest' := by
  rw [List.cons_lt_cons_iff, UInt8.lt_iff_toNat_lt, UInt8.toNat_inj]

theorem toNat_ofNat (h : n < 256) : (UInt8.ofNat n).toNat = n :=
  UInt8.toNat_ofNat_of_lt' h

/-- Of two code points the smaller has the smaller bytes, whatever stands behind them. -/
theorem Encodes.append_lt_append (h : Encodes n xs) (h' : Encodes m ys) (hlt : n < m) :
    xs ++ rest < ys ++ rest' := by
  cases h <;> cases h' <;>
    simp (disch := omega) only [List.cons_append, cons_lt_cons_iff, toNat_ofNat, toNat_tail] <;>
    omega

theorem flatMap_utf8EncodeChar_lt {cs ds : List Char} (h : cs < ds) :
    cs.flatMap String.utf8EncodeChar < ds.flatMap String.utf8EncodeChar := by
  induction h with
  | @nil d ds =>
    obtain ⟨b, bytes, hbytes⟩ := List.exists_cons_of_ne_nil (encodes_utf8EncodeChar d).ne_nil
    rw [List.flatMap_nil, List.flatMap_cons, hbytes]
    exact List.nil_lt_cons _ _
  | rel h =>
    rw [List.flatMap_cons, List.flatMap_cons]
    exact (encodes_utf8EncodeChar _).append_lt_append (encodes_utf8EncodeChar _) h
  | cons _ ih =>
    rw [List.flatMap_cons, List.flatMap_cons]
    exact List.append_left_lt ih

/-- Texts are in the order of their bytes. -/
theorem utf8_lt_iff {x y : String} : utf8 x < utf8 y ↔ x < y := by
  have hmono : ∀ {x y : String}, x < y → utf8 x < utf8 y := flatMap_utf8EncodeChar_lt
  refine ⟨fun h ↦ ?_, hmono⟩
  rcases lt_trichotomy x y with hlt | rfl | hgt
  · exact hlt
  · exact absurd h (List.lt_irrefl _)
  · exact absurd h (List.lt_asymm (hmono hgt))

theorem utf8_le_iff {x y : String} : utf8 x ≤ utf8 y ↔ x ≤ y :=
  not_congr utf8_lt_iff

end ItemSql.Text
