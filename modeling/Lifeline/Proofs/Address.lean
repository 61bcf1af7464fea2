import Lifeline.Address
import Mathlib.Data.Nat.Digits.Lemmas
import Mathlib.Data.String.Basic

/-! Addresses in text.

A text of fixed width has a digit for each place, so it can be read back
(`Hex.exists_digits_fixed`), and of two such texts the first place where they differ decides, as it
does for their numbers (`Hex.fixed_lt_fixed`). Sixteen places are enough for any address: no two
addresses have one text (`Address.format_inj`), and texts are in the order of the addresses
(`Address.format_lt_format_iff`). -/
namespace Lifeline

/-- Texts of one length that differ stay in their order, whatever comes behind them. -/
theorem append_lt_append_of_lt {xs ys : List Char} (h : xs < ys) (hlength : xs.length = ys.length)
    (as bs : List Char) : xs ++ as < ys ++ bs := by
  induction h with
  | nil => cases hlength
  | rel hfirst => exact .rel hfirst
  | cons _ ih => exact .cons (ih (Nat.succ.inj hlength))

namespace Hex

/-! ### Texts of fixed width -/

theorem digit_eq_digitChar {d : Nat} (h : d < 16) : digit d = Nat.digitChar d := by
  revert d
  decide

theorem digit_lt_digit {d e : Nat} (h : d < e) (he : e < 16) : digit d < digit e := by
  revert d
  revert e
  decide

/-- The digits are worth the number, as far as there are places for it. -/
theorem exists_digits_fixed (width n : Nat) :
    ∃ ds : List Nat, ds.length = width ∧ (∀ d ∈ ds, d < 16) ∧
      fixed width n = ds.map Nat.digitChar ∧ Nat.ofDigits 16 ds.reverse = n % 16 ^ width := by
  induction width generalizing n with
  | zero => exact ⟨[], rfl, by simp, rfl, by simp [Nat.mod_one]⟩
  | succ width ih =>
    obtain ⟨ds, hlength, hsmall, htext, hvalue⟩ := ih (n / 16)
    have hlast : n % 16 < 16 := Nat.mod_lt n (by decide)
    refine ⟨ds ++ [n % 16], ?_, ?_, ?_, ?_⟩
    · rw [List.length_append, hlength, List.length_singleton]
    · intro d hd
      obtain hd | hd := List.mem_append.mp hd
      · exact hsmall d hd
      · exact List.mem_singleton.mp hd ▸ hlast
    · rw [fixed, htext, digit_eq_digitChar hlast, List.map_append, List.map_singleton]
    · rw [List.reverse_concat, Nat.ofDigits_cons, hvalue, Nat.pow_succ', Nat.mod_mul]

/-- Digits are in the order of their numbers. -/
theorem fixed_lt_fixed {width m n : Nat} (h : m < n) (hn : n < 16 ^ width) :
    fixed width m < fixed width n := by
  induction width generalizing m n with
  | zero => omega
  | succ width ih =>
    have hhigh : m / 16 ≤ n / 16 := Nat.div_le_div_right (Nat.le_of_lt h)
    have hfits : n / 16 < 16 ^ width := by
      apply Nat.div_lt_of_lt_mul
      rwa [← Nat.pow_succ']
    rw [fixed, fixed]
    -- the last digits matter only if all places before them are alike
    obtain hdiffer | hsame := Nat.lt_or_eq_of_le hhigh
    · apply append_lt_append_of_lt (ih hdiffer hfits)
      rw [length_fixed, length_fixed]
    · rw [hsame]
      apply List.append_left_lt
      apply List.Lex.rel
      exact digit_lt_digit (by omega) (Nat.mod_lt n (by decide))

end Hex

namespace Address

/-! ### Addresses -/

/-- `0x` and sixteen lower-case digits that are worth the address, the first of them the most. -/
def IsSpelled (a : Address) (text : String) : Prop :=
  text.length = 18 ∧ ∃ ds : List Nat, ds.length = 16 ∧ (∀ d ∈ ds, d < 16) ∧
    text.toList = '0' :: 'x' :: ds.map Nat.digitChar ∧ Nat.ofDigits 16 ds.reverse = a.toNat

theorem toNat_lt (a : Address) : a.toNat < 16 ^ 16 :=
  UInt64.toNat_lt a

theorem toList_format (a : Address) : a.format.toList = '0' :: 'x' :: Hex.fixed 16 a.toNat :=
  String.toList_ofList

theorem length_format (a : Address) : a.format.length = 18 := by
  rw [← String.length_toList, toList_format, List.length_cons, List.length_cons, Hex.length_fixed]

theorem isSpelled_format (a : Address) : a.IsSpelled a.format := by
  obtain ⟨ds, hlength, hsmall, htext, hvalue⟩ := Hex.exists_digits_fixed 16 a.toNat
  refine ⟨length_format a, ds, hlength, hsmall, ?_, ?_⟩
  · rw [toList_format, htext]
  · rw [hvalue, Nat.mod_eq_of_lt (toNat_lt a)]

theorem format_lt_format {a b : Address} (h : a < b) : a.format < b.format := by
  rw [String.lt_iff_toList_lt, toList_format, toList_format]
  apply List.Lex.cons
  apply List.Lex.cons
  exact Hex.fixed_lt_fixed (UInt64.lt_iff_toNat_lt.mp h) (toNat_lt b)

/-- No two addresses have one text. -/
theorem format_inj {a b : Address} : a.format = b.format ↔ a = b := by
  constructor
  · intro h
    by_contra hne
    have hirrefl : ¬a.format < b.format ∧ ¬b.format < a.format := by
      rw [h]
      exact ⟨String.lt_irrefl _, String.lt_irrefl _⟩
    obtain hlt | hgt := UInt64.lt_or_lt_of_ne hne
    · exact hirrefl.1 (format_lt_format hlt)
    · exact hirrefl.2 (format_lt_format hgt)
  · exact congrArg format

/-- Texts are in the order of the addresses. -/
theorem format_lt_format_iff {a b : Address} : a.format < b.format ↔ a < b := by
  constructor
  · intro h
    apply UInt64.not_le.mp
    intro hle
    obtain hgt | heq := UInt64.lt_or_eq_of_le hle
    · exact String.lt_asymm h (format_lt_format hgt)
    · rw [heq] at h
      exact String.lt_irrefl _ h
  · exact format_lt_format

end Address

end Lifeline
