import Mathlib
import ItemSql.Proofs.Decimal.Integral
import ItemSql.Text.Case

/-!
# What has no letter case

Lowering makes small letters and nothing else, so signs and numbers are not changed by it, and none
is made of a text that was none. This matters where a sign is compared as it stands, and where a
number is read from whatever token is in its place, a reserved word too.
-/

namespace ItemSql

variable {c : Char}

/-! ## Texts without small letters -/

namespace Text

/-- What is no small letter once it is lowered was not changed. -/
theorem toLower_eq_self (h : ¬ c.toLower.isLower = true) : c.toLower = c := by
  apply Char.toLower_eq_of_not_isUpper
  intro hupper
  rw [Char.isLower_toLower_eq_isAlpha, Char.isAlpha, hupper, Bool.true_or] at h
  exact h rfl

theorem eq_of_lowerAscii_eq {text word : String} (hword : ∀ c ∈ word.toList, ¬ c.isLower = true)
    (h : lowerAscii text = word) : text = word := by
  have hmap : text.toList.map Char.toLower = text.toList := by
    refine (List.map_congr_left fun c hc ↦ toLower_eq_self (hword _ ?_)).trans (List.map_id _)
    rw [← h, lowerAscii, String.toList_ofList]
    exact List.mem_map_of_mem hc
  rw [← h, lowerAscii, hmap, String.ofList_toList]

end Text

/-! ## Integers -/

namespace Decimal

theorem not_isUpper_of_isDigit (h : c.isDigit = true) : ¬ c.isUpper = true := by
  simp only [Char.isDigit, Char.isUpper, UInt32.le_iff_toNat_le] at h ⊢
  grind

theorem not_isLower_of_isDigit (h : c.isDigit = true) : ¬ c.isLower = true := by
  simp only [Char.isDigit, Char.isLower, UInt32.le_iff_toNat_le] at h ⊢
  grind

theorem toLower_of_isDigit (h : c.isDigit = true) : c.toLower = c :=
  Char.toLower_eq_of_not_isUpper (not_isUpper_of_isDigit h)

theorem isDigit_toLower (c : Char) : c.toLower.isDigit = c.isDigit := by
  rw [Bool.eq_iff_iff]
  constructor
  · intro h
    rwa [← Text.toLower_eq_self (not_isLower_of_isDigit h)]
  · intro h
    rwa [toLower_of_isDigit h]

theorem natural?_map_toLower (cs : List Char) : natural? (cs.map Char.toLower) = natural? cs := by
  have hall : (cs.map Char.toLower).all Char.isDigit = cs.all Char.isDigit := by
    rw [List.all_map]
    exact congrArg cs.all (funext isDigit_toLower)
  rw [natural?, natural?, hall]
  by_cases hcs : cs ≠ [] ∧ cs.all Char.isDigit = true
  · -- All of the characters are digits, and stay what they are.
    have hmap : cs.map Char.toLower = cs := by
      refine (List.map_congr_left fun c hc ↦ ?_).trans (List.map_id cs)
      exact toLower_of_isDigit (List.all_eq_true.mp hcs.2 c hc)
    rw [hmap]
  · rw [if_neg hcs, if_neg]
    rwa [ne_eq, List.map_eq_nil_iff]

theorem integer?_map_toLower (cs : List Char) : integer? (cs.map Char.toLower) = integer? cs := by
  cases cs with
  | nil => rfl
  | cons c cs =>
    have hsign (d : Char) (hd : ¬ d.isLower = true) (hne : c ≠ d) : c.toLower ≠ d := by
      rintro rfl
      exact hne (Text.toLower_eq_self hd).symm
    by_cases hplus : c = '+'
    · have hself : '+'.toLower = '+' := rfl
      rw [hplus, List.map_cons, hself, integer?, integer?, natural?_map_toLower]
    by_cases hminus : c = '-'
    · have hself : '-'.toLower = '-' := rfl
      rw [hminus, List.map_cons, hself, integer?, integer?, natural?_map_toLower]
    rw [List.map_cons, integer?_of_unsigned (hsign '+' (by decide) hplus)
      (hsign '-' (by decide) hminus), integer?_of_unsigned hplus hminus, ← List.map_cons,
      natural?_map_toLower]

theorem int64?_lowerAscii (text : String) : int64? (Text.lowerAscii text) = int64? text := by
  rw [int64?, int64?, Text.lowerAscii, String.toList_ofList, integer?_map_toLower]

end Decimal

end ItemSql
