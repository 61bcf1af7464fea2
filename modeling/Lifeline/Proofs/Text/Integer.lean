import Lifeline.Proofs.Basics
import Lifeline.Text.Integer
import Mathlib.Data.List.Forall2
import Mathlib.Data.Nat.Digits.Lemmas
import Mathlib.Tactic.IntervalCases
import Mathlib.Tactic.SplitIfs

/-! Which texts are read as numbers.

Digits are judged one at a time, but a number never gets smaller by a further digit, and so they are
read just if they are worth no more than the limit (`readDigits_eq_ok_iff`), however many of them
are zeros in front. A natural number may have a plus before them (`readNatural_eq_ok_iff`), and an
integer either sign (`readInteger_eq_ok_iff`). Decimal texts are among them
(`isInteger_toString`). -/
namespace Lifeline.Text

/-- A digit and its value. Letters of either case stand for ten and more. -/
def IsDigit (radix : Nat) (c : Char) (d : Nat) : Prop :=
  d < radix ∧ (c = Nat.digitChar d ∨ c = (Nat.digitChar d).toUpper)

/-- The digits of a number, the first of them worth the most. There is at least one. -/
def AreDigits (radix : Nat) (text : List Char) (n : Nat) : Prop :=
  text ≠ [] ∧ ∃ ds, List.Forall₂ (IsDigit radix) text ds ∧ n = Nat.ofDigits radix ds.reverse

/-! ### Digits -/

theorem digitValue?_digitChar {d : Nat} (h : d < 16) (radix : Nat) :
    digitValue? radix (Nat.digitChar d) = if d < radix then some d else none := by
  interval_cases d <;> rfl

theorem digitValue?_toUpper {d : Nat} (h : d < 16) (radix : Nat) :
    digitValue? radix (Nat.digitChar d).toUpper = if d < radix then some d else none := by
  interval_cases d <;> rfl

theorem digitValue?_eq_some_iff {radix d : Nat} {c : Char} (hradix : radix ≤ 16) :
    digitValue? radix c = some d ↔ IsDigit radix c d := by
  constructor
  · intro h
    unfold digitValue? at h
    simp only [Option.ite_none_right_eq_some, Option.some.injEq] at h
    obtain ⟨hlt, rfl⟩ := h
    refine ⟨hlt, ?_⟩
    -- A radix up to sixteen leaves a few letters of the alphabet.
    split_ifs at hlt ⊢ with hdigit hlower hupper
    · have hleast : 48 ≤ c.toNat := hdigit.1
      have hgreatest : c.toNat ≤ 57 := hdigit.2
      rw [← Char.ofNat_toNat c]
      generalize c.toNat = n at *
      left
      interval_cases n <;> rfl
    · have hleast : 97 ≤ c.toNat := hlower.1
      rw [← Char.ofNat_toNat c]
      generalize c.toNat = n at *
      have hgreatest : n ≤ 102 := by omega
      left
      interval_cases n <;> rfl
    · have hleast : 65 ≤ c.toNat := hupper.1
      rw [← Char.ofNat_toNat c]
      generalize c.toNat = n at *
      have hgreatest : n ≤ 70 := by omega
      right
      interval_cases n <;> rfl
    · exact absurd hlt (Nat.lt_irrefl radix)
  · rintro ⟨hd, rfl | rfl⟩
    · rw [digitValue?_digitChar (Nat.lt_of_lt_of_le hd hradix), if_pos hd]
    · rw [digitValue?_toUpper (Nat.lt_of_lt_of_le hd hradix), if_pos hd]

theorem digitValue?_sign {sign : Char} (h : sign = '+' ∨ sign = '-') (radix : Nat) :
    digitValue? radix sign = none := by
  obtain rfl | rfl := h <;> simp [digitValue?]

theorem lt_of_mem_digits {radix d : Nat} {text : List Char} {ds : List Nat}
    (h : List.Forall₂ (IsDigit radix) text ds) (hd : d ∈ ds) : d < radix := by
  induction h with
  | nil => exact absurd hd List.not_mem_nil
  | cons hfirst _ ih => exact (List.mem_cons.mp hd).elim (fun heq => heq ▸ hfirst.1) ih

theorem AreDigits.lt {radix n : Nat} {text : List Char} (hradix : 1 < radix)
    (h : AreDigits radix text n) : n < radix ^ text.length := by
  obtain ⟨-, ds, hds, rfl⟩ := h
  rw [hds.length_eq, ← List.length_reverse]
  exact Nat.ofDigits_lt_base_pow_length hradix fun d hd =>
    lt_of_mem_digits hds (List.mem_reverse.mp hd)

/-! ### Numbers -/

theorem le_foldl_digits {radix : Nat} (hradix : 0 < radix) (value : Nat) (ds : List Nat) :
    value ≤ ds.foldl (fun n d => n * radix + d) value := by
  induction ds generalizing value with
  | nil => exact Nat.le_refl value
  | cons d ds ih =>
    have hgrown : value ≤ value * radix := Nat.le_mul_of_pos_right value hradix
    exact Nat.le_trans (Nat.le_add_right_of_le hgrown) (ih (value * radix + d))

theorem foldl_digits (radix : Nat) (ds : List Nat) :
    ds.foldl (fun n d => n * radix + d) 0 = Nat.ofDigits radix ds.reverse := by
  rw [List.foldl_eq_foldr_reverse, Nat.ofDigits_eq_foldr]
  congr 1
  funext d n
  rw [Nat.cast_id, Nat.add_comm, Nat.mul_comm]

theorem readDigits_eq_ok_iff {radix limit value n : Nat} {overflow : IntegerError}
    {text : List Char} (hpos : 0 < radix) (hradix : radix ≤ 16) (hvalue : value ≤ limit) :
    readDigits radix limit overflow value text = .ok n ↔
      ∃ ds, List.Forall₂ (IsDigit radix) text ds ∧
        n = ds.foldl (fun n d => n * radix + d) value ∧ n ≤ limit := by
  induction text generalizing value with
  | nil =>
    rw [readDigits]
    constructor
    · rintro ⟨⟩
      exact ⟨[], .nil, rfl, hvalue⟩
    · rintro ⟨ds, ⟨⟩, rfl, -⟩
      rfl
  | cons c text ih =>
    rw [readDigits]
    constructor
    · intro h
      split at h
      · cases h
      · rename_i d hd
        split at h
        · rename_i hfits
          obtain ⟨ds, hds, hn, hlimit⟩ := (ih hfits).mp h
          exact ⟨d :: ds, .cons ((digitValue?_eq_some_iff hradix).mp hd) hds, hn, hlimit⟩
        · cases h
    · rintro ⟨ds, hds, rfl, hlimit⟩
      cases hds with
      | @cons _ d _ ds hd hds =>
        have hfits : value * radix + d ≤ limit :=
          Nat.le_trans (le_foldl_digits hpos _ ds) hlimit
        simp only [(digitValue?_eq_some_iff hradix).mpr hd, if_pos hfits]
        exact (ih hfits).mpr ⟨ds, hds, rfl, hlimit⟩

theorem readDigits_zero_eq_ok_iff {radix limit n : Nat} {overflow : IntegerError}
    {text : List Char} (hpos : 0 < radix) (hradix : radix ≤ 16) (hsome : text ≠ []) :
    readDigits radix limit overflow 0 text = .ok n ↔ AreDigits radix text n ∧ n ≤ limit := by
  rw [readDigits_eq_ok_iff hpos hradix (Nat.zero_le limit)]
  simp only [foldl_digits, AreDigits]
  constructor
  · rintro ⟨ds, hds, hn, hlimit⟩
    exact ⟨⟨hsome, ds, hds, hn⟩, hlimit⟩
  · rintro ⟨⟨-, ds, hds, hn⟩, hlimit⟩
    exact ⟨ds, hds, hn, hlimit⟩

/-- Digits do not start with a sign. -/
theorem AreDigits.head_ne {radix n : Nat} {c sign : Char} {rest : List Char} (hradix : radix ≤ 16)
    (hsign : sign = '+' ∨ sign = '-') (h : AreDigits radix (c :: rest) n) : c ≠ sign := by
  intro hc
  obtain ⟨-, ds, hds, -⟩ := h
  cases hds with
  | cons hd =>
    rw [← digitValue?_eq_some_iff hradix, hc, digitValue?_sign hsign] at hd
    cases hd

/-- A natural number is its digits, or a plus and its digits. -/
theorem readNatural_eq_ok_iff {radix limit n : Nat} {text : List Char} (hpos : 0 < radix)
    (hradix : radix ≤ 16) :
    readNatural radix limit text = .ok n ↔
      ∃ digits, (text = digits ∨ text = '+' :: digits) ∧ AreDigits radix digits n ∧
        n ≤ limit := by
  cases text with
  | nil =>
    constructor
    · rintro ⟨⟩
    · rintro ⟨digits, rfl | heq, hdigits, -⟩
      · exact absurd rfl hdigits.1
      · cases heq
  | cons c rest =>
    by_cases hc : c = '+'
    · subst hc
      cases rest with
      | nil =>
        constructor
        · rintro ⟨⟩
        · rintro ⟨digits, rfl | heq, hdigits, -⟩
          · exact absurd rfl (hdigits.head_ne hradix (.inl rfl))
          · cases heq
            exact absurd rfl hdigits.1
      | cons d rest =>
        change readDigits radix limit .tooLarge 0 (d :: rest) = .ok n ↔ _
        rw [readDigits_zero_eq_ok_iff hpos hradix (List.cons_ne_nil d rest)]
        constructor
        · exact fun h => ⟨d :: rest, .inr rfl, h⟩
        · rintro ⟨digits, rfl | heq, h⟩
          · exact absurd rfl (h.1.head_ne hradix (.inl rfl))
          · cases heq
            exact h
    · have hplain : readNatural radix limit (c :: rest) =
          readDigits radix limit .tooLarge 0 (c :: rest) := by
        refine readNatural.eq_4 radix limit (c :: rest) ?_ ?_ ?_ <;> simp [hc]
      rw [hplain, readDigits_zero_eq_ok_iff hpos hradix (List.cons_ne_nil c rest)]
      constructor
      · exact fun h => ⟨c :: rest, .inl rfl, h⟩
      · rintro ⟨digits, rfl | heq, h⟩
        · exact h
        · exact absurd (List.cons.inj heq).1 hc

/-! ### Integers -/

/-- The digits of an integer, perhaps behind a sign. -/
def IsInteger (radix : Nat) (text : List Char) (z : Int) : Prop :=
  ∃ digits n, AreDigits radix digits n ∧
    (text = digits ∧ z = n ∨ text = '+' :: digits ∧ z = n ∨ text = '-' :: digits ∧ z = -n)

section

variable {radix limit : Nat} {z : Int}

theorem isInteger_plus_iff {digits : List Char} (hradix : radix ≤ 16) :
    IsInteger radix ('+' :: digits) z ↔ ∃ n, AreDigits radix digits n ∧ z = n := by
  constructor
  · intro ⟨digits', n, hdigits, hsign⟩
    obtain ⟨rfl, -⟩ | ⟨heq, hz⟩ | ⟨heq, -⟩ := hsign
    · exact absurd rfl (hdigits.head_ne hradix (.inl rfl))
    · cases heq
      exact ⟨n, hdigits, hz⟩
    · cases heq
  · intro ⟨n, hdigits, hz⟩
    exact ⟨digits, n, hdigits, .inr (.inl ⟨rfl, hz⟩)⟩

theorem isInteger_minus_iff {digits : List Char} (hradix : radix ≤ 16) :
    IsInteger radix ('-' :: digits) z ↔ ∃ n, AreDigits radix digits n ∧ z = -n := by
  constructor
  · intro ⟨digits', n, hdigits, hsign⟩
    obtain ⟨rfl, -⟩ | ⟨heq, -⟩ | ⟨heq, hz⟩ := hsign
    · exact absurd rfl (hdigits.head_ne hradix (.inr rfl))
    · cases heq
    · cases heq
      exact ⟨n, hdigits, hz⟩
  · intro ⟨n, hdigits, hz⟩
    exact ⟨digits, n, hdigits, .inr (.inr ⟨rfl, hz⟩)⟩

theorem isInteger_unsigned_iff {text : List Char} (hplus : text.head? ≠ some '+')
    (hminus : text.head? ≠ some '-') :
    IsInteger radix text z ↔ ∃ n, AreDigits radix text n ∧ z = n := by
  constructor
  · intro ⟨digits, n, hdigits, hsign⟩
    obtain ⟨rfl, hz⟩ | ⟨rfl, -⟩ | ⟨rfl, -⟩ := hsign
    · exact ⟨n, hdigits, hz⟩
    · exact absurd rfl hplus
    · exact absurd rfl hminus
  · intro ⟨n, hdigits, hz⟩
    exact ⟨text, n, hdigits, .inl ⟨rfl, hz⟩⟩

theorem map_readDigits_eq_ok_iff {overflow : IntegerError} {text : List Char} {f : Nat → Int}
    (hpos : 0 < radix) (hradix : radix ≤ 16) (hsome : text ≠ []) :
    (readDigits radix limit overflow 0 text).map f = .ok z ↔
      ∃ n, AreDigits radix text n ∧ n ≤ limit ∧ f n = z := by
  rw [map_eq_ok]
  simp only [readDigits_zero_eq_ok_iff hpos hradix hsome, and_assoc]

theorem readInteger_plus_iff {digits : List Char} (hpos : 0 < radix) (hradix : radix ≤ 16) :
    readInteger radix limit ('+' :: digits) = .ok z ↔
      ∃ n, AreDigits radix digits n ∧ n ≤ limit ∧ (n : Int) = z := by
  cases digits with
  | nil => exact iff_of_false nofun fun ⟨_, hdigits, _⟩ => hdigits.1 rfl
  | cons d rest => exact map_readDigits_eq_ok_iff hpos hradix (List.cons_ne_nil d rest)

theorem readInteger_minus_iff {digits : List Char} (hpos : 0 < radix) (hradix : radix ≤ 16) :
    readInteger radix limit ('-' :: digits) = .ok z ↔
      ∃ n, AreDigits radix digits n ∧ n ≤ limit + 1 ∧ -(n : Int) = z := by
  cases digits with
  | nil => exact iff_of_false nofun fun ⟨_, hdigits, _⟩ => hdigits.1 rfl
  | cons d rest =>
    have hsigned : readInteger radix limit ('-' :: d :: rest) =
        (readDigits radix (limit + 1) .tooSmall 0 (d :: rest)).map fun n : Nat => -(n : Int) := by
      rw [readInteger.eq_5 _ _ _ (List.cons_ne_nil d rest)]
      cases readDigits radix (limit + 1) .tooSmall 0 (d :: rest) <;> rfl
    rw [hsigned]
    exact map_readDigits_eq_ok_iff hpos hradix (List.cons_ne_nil d rest)

theorem readInteger_unsigned_iff {text : List Char} (hpos : 0 < radix) (hradix : radix ≤ 16)
    (hplus : text.head? ≠ some '+') (hminus : text.head? ≠ some '-') :
    readInteger radix limit text = .ok z ↔
      ∃ n, AreDigits radix text n ∧ n ≤ limit ∧ (n : Int) = z := by
  cases text with
  | nil => exact iff_of_false nofun fun ⟨_, hdigits, _⟩ => hdigits.1 rfl
  | cons c rest =>
    have hunsigned : readInteger radix limit (c :: rest) =
        (readDigits radix limit .tooLarge 0 (c :: rest)).map Int.ofNat := by
      refine readInteger.eq_6 radix limit (c :: rest) ?_ ?_ ?_ ?_ ?_ <;> simp_all
    rw [hunsigned]
    exact map_readDigits_eq_ok_iff hpos hradix (List.cons_ne_nil c rest)

/-- An integer is its digits, or a sign and its digits. -/
theorem readInteger_eq_ok_iff {text : List Char} (hpos : 0 < radix) (hradix : radix ≤ 16) :
    readInteger radix limit text = .ok z ↔
      IsInteger radix text z ∧ -(limit + 1 : Int) ≤ z ∧ z ≤ limit := by
  -- whatever the sign, the limit on the digits is the one on the integer
  have hnatural (digits : List Char) :
      (∃ n, AreDigits radix digits n ∧ n ≤ limit ∧ (n : Int) = z) ↔
        (∃ n, AreDigits radix digits n ∧ z = n) ∧ -(limit + 1 : Int) ≤ z ∧ z ≤ limit := by
    constructor
    · intro ⟨n, hdigits, hlimit, hz⟩
      exact ⟨⟨n, hdigits, hz.symm⟩, by omega, by omega⟩
    · intro ⟨⟨n, hdigits, hz⟩, _, hmost⟩
      exact ⟨n, hdigits, by omega, hz.symm⟩
  have hnegative (digits : List Char) :
      (∃ n, AreDigits radix digits n ∧ n ≤ limit + 1 ∧ -(n : Int) = z) ↔
        (∃ n, AreDigits radix digits n ∧ z = -n) ∧ -(limit + 1 : Int) ≤ z ∧ z ≤ limit := by
    constructor
    · intro ⟨n, hdigits, hlimit, hz⟩
      exact ⟨⟨n, hdigits, hz.symm⟩, by omega, by omega⟩
    · intro ⟨⟨n, hdigits, hz⟩, hleast, _⟩
      exact ⟨n, hdigits, by omega, hz.symm⟩
  by_cases hplus : text.head? = some '+'
  · obtain ⟨digits, rfl⟩ := List.head?_eq_some_iff.mp hplus
    rw [readInteger_plus_iff hpos hradix, isInteger_plus_iff hradix, hnatural]
  by_cases hminus : text.head? = some '-'
  · obtain ⟨digits, rfl⟩ := List.head?_eq_some_iff.mp hminus
    rw [readInteger_minus_iff hpos hradix, isInteger_minus_iff hradix, hnegative]
  · rw [readInteger_unsigned_iff hpos hradix hplus hminus, isInteger_unsigned_iff hplus hminus,
      hnatural]

end

/-! ### Decimal texts -/

theorem areDigits_singleton {radix d : Nat} {c : Char} (h : IsDigit radix c d) :
    AreDigits radix [c] d :=
  ⟨List.cons_ne_nil c [], [d], .cons h .nil, Nat.ofDigits_singleton.symm⟩

theorem AreDigits.concat {radix n d : Nat} {text : List Char} {c : Char}
    (h : AreDigits radix text n) (hc : IsDigit radix c d) :
    AreDigits radix (text ++ [c]) (d + radix * n) := by
  obtain ⟨-, ds, hds, rfl⟩ := h
  refine ⟨by simp, ds ++ [d], List.rel_append hds (.cons hc .nil), ?_⟩
  rw [List.reverse_concat, Nat.ofDigits_cons]

theorem areDigits_toDigits {radix : Nat} (hradix : 1 < radix) (n : Nat) :
    AreDigits radix (Nat.toDigits radix n) n := by
  induction n using Nat.strongRecOn with
  | ind n ih =>
    rw [Nat.toDigits_eq_if hradix]
    split
    · rename_i hn
      exact areDigits_singleton ⟨hn, .inl rfl⟩
    · have hlast : IsDigit radix (Nat.digitChar (n % radix)) (n % radix) :=
        ⟨Nat.mod_lt n (by omega), .inl rfl⟩
      have hless : n / radix < n := Nat.div_lt_self (by omega) hradix
      have hall := (ih (n / radix) hless).concat hlast
      rwa [Nat.mod_add_div] at hall

theorem isInteger_toString (z : Int) : IsInteger 10 (toString z).toList z := by
  cases z with
  | ofNat n =>
    refine ⟨Nat.toDigits 10 n, n, areDigits_toDigits (by decide) n, .inl ⟨?_, rfl⟩⟩
    exact Nat.toList_repr
  | negSucc n =>
    refine ⟨Nat.toDigits 10 (n + 1), n + 1, areDigits_toDigits (by decide) (n + 1),
      .inr (.inr ⟨?_, rfl⟩)⟩
    have htext : (toString (Int.negSucc n)).toList = ("-" ++ (n + 1).repr).toList := rfl
    rw [htext, String.toList_append, Nat.toList_repr]
    rfl

end Lifeline.Text
