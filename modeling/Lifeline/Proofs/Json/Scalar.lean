import Lifeline.Json.Read
import Lifeline.Json.Value
import Mathlib.Data.List.Basic
import Mathlib.Data.List.TakeDrop
import Mathlib.Tactic.SplitIfs

/-! Texts and numbers by their characters.

What stands between quotes is taken and read one piece at a time: a character as it is, a letter
behind a backslash, or a code unit. A character is written as one of these (`escapeChar_cases`).
The digits of a number are taken up to the first character that is no part of it
(`Numeral.span_isDigit`), and gathered into its value (`Numeral.gather_eq`). -/
namespace Lifeline

theorem Text.digitValue?_digit {n : Nat} (h : n < 16) :
    Text.digitValue? 16 (Hex.digit n) = some n := by
  revert n
  decide

namespace Json

/-! ### Texts -/

/-- Four digits are a code unit. -/
theorem exists_codeUnit?_fixed {n : Nat} (h : n < 0x10000) :
    ∃ a b c d, Hex.fixed 4 n = [a, b, c, d] ∧ codeUnit? a b c d = some n := by
  refine ⟨_, _, _, _, rfl, ?_⟩
  rw [codeUnit?, Text.digitValue?_digit (Nat.mod_lt _ (by decide)),
    Text.digitValue?_digit (Nat.mod_lt _ (by decide)),
    Text.digitValue?_digit (Nat.mod_lt _ (by decide)),
    Text.digitValue?_digit (Nat.mod_lt _ (by decide))]
  exact congrArg some (by omega)

/-- How a character can be written: as a letter behind a backslash, as a code unit, or as it
is. -/
theorem escapeChar_cases (c : Char) :
    (∃ letter, escaped? letter = some c ∧ escapeChar c = ['\\', letter]) ∨
      (c.toNat < 0x20 ∧ escapeChar c = '\\' :: 'u' :: Hex.fixed 4 c.toNat) ∨
      (c ≠ '"' ∧ c ≠ '\\' ∧ 0x20 ≤ c.toNat ∧ escapeChar c = [c]) := by
  unfold escapeChar
  split_ifs with hquote hslash hb hf hn hr ht hcontrol
  · exact .inl ⟨'"', by subst c; rfl, rfl⟩
  · exact .inl ⟨'\\', by subst c; rfl, rfl⟩
  · exact .inl ⟨'b', by subst c; rfl, rfl⟩
  · exact .inl ⟨'f', by subst c; rfl, rfl⟩
  · exact .inl ⟨'n', by subst c; rfl, rfl⟩
  · exact .inl ⟨'r', by subst c; rfl, rfl⟩
  · exact .inl ⟨'t', by subst c; rfl, rfl⟩
  · exact .inr (.inl ⟨hcontrol, rfl⟩)
  · exact .inr (.inr ⟨hquote, hslash, Nat.le_of_not_lt hcontrol, rfl⟩)

theorem escape_cons (c : Char) (text : List Char) :
    escape (c :: text) = escapeChar c ++ escape text :=
  rfl

theorem takeText_letter {letter c : Char} (hu : letter ≠ 'u') (h : escaped? letter = some c)
    (rest : List Char) :
    takeText ('\\' :: letter :: rest) =
      ('\\' :: letter :: (takeText rest).1, (takeText rest).2) := by
  rw [takeText.eq_3 _ _ fun _ _ _ _ _ heq => absurd heq hu, h]

theorem takeText_unit {x y z w : Char} {n : Nat} (h : codeUnit? x y z w = some n)
    (rest : List Char) :
    takeText ('\\' :: 'u' :: x :: y :: z :: w :: rest) =
      ('\\' :: 'u' :: x :: y :: z :: w :: (takeText rest).1, (takeText rest).2) := by
  rw [takeText.eq_2, h]

theorem takeText_plain {c : Char} (hquote : c ≠ '"') (hslash : c ≠ '\\') (h : 0x20 ≤ c.toNat)
    (rest : List Char) : takeText (c :: rest) = (c :: (takeText rest).1, (takeText rest).2) := by
  rw [takeText.eq_4 _ _ (fun _ _ _ _ _ heq => absurd heq hslash) fun _ _ heq => absurd heq hslash,
    if_neg hquote, if_neg (not_or.mpr ⟨hslash, Nat.not_lt.mpr h⟩)]

theorem takeText_quote (rest : List Char) : takeText ('"' :: rest) = ([], some rest) := by
  rw [takeText.eq_4 _ _ (fun _ _ _ _ _ heq => absurd heq (by decide))
    fun _ _ heq => absurd heq (by decide), if_pos rfl]

theorem unescape?_letter {letter c : Char} (hu : letter ≠ 'u') (h : escaped? letter = some c)
    (rest : List Char) : unescape? ('\\' :: letter :: rest) = (unescape? rest).map (c :: ·) := by
  rw [unescape?.eq_3 _ _ fun _ _ _ _ _ heq => absurd heq hu, h]

/-- A code unit that is no half is the character. -/
theorem unescape?_unit {x y z w : Char} {n : Nat} (h : codeUnit? x y z w = some n)
    (hhigh : isHighHalf n = false) (hlow : isLowHalf n = false) (rest : List Char) :
    unescape? ('\\' :: 'u' :: x :: y :: z :: w :: rest) =
      (unescape? rest).map (Char.ofNat n :: ·) := by
  rw [unescape?.eq_2, h]
  simp only [hhigh, hlow, if_neg Bool.false_ne_true]

theorem unescape?_plain {c : Char} (h : c ≠ '\\') (rest : List Char) :
    unescape? (c :: rest) = (unescape? rest).map (c :: ·) := by
  rw [unescape?.eq_4 _ _ (fun _ _ _ _ _ heq => absurd heq h) fun _ _ heq => absurd heq h, if_neg h]

theorem ne_of_isDigit {c d : Char} (hc : c.isDigit = true) (hd : d.isDigit = false) : c ≠ d := by
  rintro rfl
  exact Bool.noConfusion (hd.symm.trans hc)

theorem escapeChar_of_isDigit {c : Char} (h : c.isDigit = true) : escapeChar c = [c] := by
  have hcontrol : ¬c.toNat < 0x20 := by
    have hleast : 48 ≤ c.toNat := (Char.isDigit_iff_toNat.mp h).1
    omega
  unfold escapeChar
  rw [if_neg (ne_of_isDigit h rfl), if_neg (ne_of_isDigit h rfl), if_neg (ne_of_isDigit h rfl),
    if_neg (ne_of_isDigit h rfl), if_neg (ne_of_isDigit h rfl), if_neg (ne_of_isDigit h rfl),
    if_neg (ne_of_isDigit h rfl), if_neg hcontrol]

/-- Digits are written as they are. -/
theorem escape_of_isDigit {text : List Char} (h : ∀ c ∈ text, c.isDigit = true) :
    escape text = text := by
  induction text with
  | nil => rfl
  | cons c text ih =>
    obtain ⟨hc, htext⟩ := List.forall_mem_cons.mp h
    rw [escape_cons, escapeChar_of_isDigit hc, ih htext]
    rfl

/-! ### Numbers -/

namespace Numeral

/-- A character that would go on with a numeral. -/
def goesOn (c : Char) : Bool :=
  c.isDigit || c == '.' || c == 'e' || c == 'E'

/-- What stands behind a numeral is no part of it. -/
def Ends (rest : List Char) : Prop :=
  ∀ c ∈ rest.head?, goesOn c = false

theorem ends_nil : Ends [] := by
  simp [Ends]

theorem ends_cons {c : Char} (h : goesOn c = false) (rest : List Char) : Ends (c :: rest) := by
  simpa [Ends] using h

/-- A number as it is written. -/
def ofNat (n : Nat) : Numeral :=
  ⟨false, Nat.toDigits 10 n, [], none⟩

theorem digitsValue_toDigits (n : Nat) : digitsValue (Nat.toDigits 10 n) = n := by
  have hstep : (fun n c => n * 10 + digitValue c) =
      fun (n : Nat) (c : Char) => 10 * n + (c.toNat - '0'.toNat) := by
    funext n c
    rw [Nat.mul_comm]
    rfl
  have hvalue := Nat.ofDigitChars_toDigits (b := 10) (n := n) (by decide) (by decide)
  rw [Nat.ofDigitChars_eq_foldl] at hvalue
  rwa [digitsValue, hstep]

theorem toDigits_injective {m n : Nat} (h : Nat.toDigits 10 m = Nat.toDigits 10 n) : m = n := by
  rw [← digitsValue_toDigits m, h, digitsValue_toDigits]

theorem isDigit_toDigits (n : Nat) : ∀ c ∈ Nat.toDigits 10 n, c.isDigit = true :=
  fun _ hc => Nat.isDigit_of_mem_toDigits (by decide) (by decide) hc

/-- No number but zero starts with a zero. -/
theorem toDigits_of_head?_zero {n : Nat} (h : (Nat.toDigits 10 n).head? = some '0') :
    Nat.toDigits 10 n = ['0'] := by
  induction n using Nat.strongRecOn with
  | _ n ih =>
    by_cases hn : n < 10
    · rw [Nat.toDigits_of_lt_base hn] at h ⊢
      simpa using h
    · rw [Nat.toDigits_of_base_le (by decide) (Nat.le_of_not_lt hn),
        List.head?_append_of_ne_nil _ Nat.toDigits_ne_nil] at h
      have hzero : n / 10 = 0 := toDigits_injective (ih (n / 10) (by omega) h)
      omega

theorem takeExponent?_of_ends {rest : List Char} (h : Ends rest) :
    takeExponent? rest = some (none, rest) := by
  cases rest with
  | nil => rfl
  | cons c rest =>
    have hmark : ¬(c = 'e' ∨ c = 'E') := by
      rintro (rfl | rfl)
      · exact absurd (h 'e' rfl) (by decide)
      · exact absurd (h 'E' rfl) (by decide)
    rw [takeExponent?, if_neg hmark]

theorem Ends.not_isDigit {rest : List Char} (h : Ends rest) :
    ∀ c ∈ rest.head?, c.isDigit = false := by
  intro c hc
  have hgoes := h c hc
  simp only [goesOn, Bool.or_eq_false_iff] at hgoes
  exact hgoes.1.1.1

theorem span_isDigit {digits rest : List Char} (hdigits : ∀ c ∈ digits, c.isDigit = true)
    (h : ∀ c ∈ rest.head?, c.isDigit = false) :
    (digits ++ rest).span Char.isDigit = (digits, rest) := by
  have hrest : rest.takeWhile Char.isDigit = [] ∧ rest.dropWhile Char.isDigit = rest := by
    cases rest with
    | nil => exact ⟨rfl, rfl⟩
    | cons c rest => simp [h c rfl]
  rw [List.span_eq_takeWhile_dropWhile, List.takeWhile_append_of_pos hdigits,
    List.dropWhile_append_of_pos hdigits, hrest.1, hrest.2, List.append_nil]

theorem le_foldl_digits (m : Nat) (digits : List Char) :
    m ≤ digits.foldl (fun n c => n * 10 + digitValue c) m := by
  induction digits generalizing m with
  | nil => exact Nat.le_refl m
  | cons c digits ih => exact Nat.le_trans (by omega) (ih (m * 10 + digitValue c))

/-- Digits that are worth a machine word are gathered to the last. -/
theorem gather_eq {m : Nat} {digits : List Char}
    (h : digits.foldl (fun n c => n * 10 + digitValue c) m < UInt64.size) :
    gather m digits = (digits.foldl (fun n c => n * 10 + digitValue c) m, []) := by
  induction digits generalizing m with
  | nil => rfl
  | cons c digits ih =>
    rw [gather, if_pos (Nat.lt_of_le_of_lt (le_foldl_digits _ digits) h)]
    exact ih h

/-- What is gathered to the last digit is the value. -/
theorem eq_of_gather_eq {m value : Nat} {digits : List Char} (h : gather m digits = (value, [])) :
    value = digits.foldl (fun n c => n * 10 + digitValue c) m := by
  induction digits generalizing m with
  | nil => exact (congrArg Prod.fst h).symm
  | cons c digits ih =>
    rw [gather] at h
    split at h
    · exact ih h
    · cases h

end Numeral

end Json

end Lifeline
