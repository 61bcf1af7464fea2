import Lifeline.Proofs.Json.Scalar
import Lifeline.Proofs.Text.Integer

/-! How texts and numbers can be spelled in JSON.

There are many spellings of a text (`Quoted`). All of them are taken up to the closing quote
(`Between.takeText_eq`), and read as what they spell and nothing else (`Quoted.unescape?_eq`,
`Between.quoted`). A numeral is taken to its last character (`Numeral.Written.take?_eq`), and one
that is a whole number in plain decimal is worth that number or none
(`Numeral.integer?_ofInt`, `Numeral.eq_of_integer?_ofInt`). What is written here is spelled so. -/
namespace Lifeline.Json

/-! ### Texts -/

/-- What letters behind a backslash are short for. -/
def shorthands : List (Char × Char) :=
  [ ('"', '"'), ('\\', '\\'), ('/', '/'), ('b', '\x08'), ('f', '\x0c'), ('n', '\n'), ('r', '\r'),
    ('t', '\t') ]

/-- What may stand between quotes. -/
inductive Between : List Char → Prop where
  | nil : Between []
  | plain {c : Char} {raw : List Char} (hquote : c ≠ '"') (hslash : c ≠ '\\')
      (hcontrol : 0x20 ≤ c.toNat) (h : Between raw) : Between (c :: raw)
  | letter {letter c : Char} {raw : List Char} (hletter : (letter, c) ∈ shorthands)
      (h : Between raw) : Between ('\\' :: letter :: raw)
  | unit {x y z w : Char} {n : Nat} {raw : List Char} (hunit : Text.AreDigits 16 [x, y, z, w] n)
      (h : Between raw) : Between ('\\' :: 'u' :: x :: y :: z :: w :: raw)

/-- What stands between quotes spells a text: a character stands for itself, a letter behind a
backslash for what it is short for, a code unit for its character, and two halves for theirs. -/
inductive Quoted : List Char → List Char → Prop where
  | nil : Quoted [] []
  | plain {c : Char} {raw text : List Char} (hquote : c ≠ '"') (hslash : c ≠ '\\')
      (hcontrol : 0x20 ≤ c.toNat) (h : Quoted raw text) : Quoted (c :: raw) (c :: text)
  | letter {letter c : Char} {raw text : List Char} (hletter : (letter, c) ∈ shorthands)
      (h : Quoted raw text) : Quoted ('\\' :: letter :: raw) (c :: text)
  | unit {x y z w c : Char} {raw text : List Char}
      (hunit : Text.AreDigits 16 [x, y, z, w] c.toNat) (h : Quoted raw text) :
      Quoted ('\\' :: 'u' :: x :: y :: z :: w :: raw) (c :: text)
  | halves {x y z w x' y' z' w' c : Char} {high low : Nat} {raw text : List Char}
      (hhigh : Text.AreDigits 16 [x, y, z, w] (0xD800 + high)) (hhigh' : high < 0x400)
      (hlow : Text.AreDigits 16 [x', y', z', w'] (0xDC00 + low)) (hlow' : low < 0x400)
      (hc : c.toNat = 0x10000 + high * 0x400 + low) (h : Quoted raw text) :
      Quoted ('\\' :: 'u' :: x :: y :: z :: w :: '\\' :: 'u' :: x' :: y' :: z' :: w' :: raw)
        (c :: text)

theorem escaped?_eq_some_iff {letter c : Char} :
    escaped? letter = some c ↔ (letter, c) ∈ shorthands := by
  constructor
  · intro h
    unfold escaped? at h
    split_ifs at h with hsame hb hf hn hr ht
    · obtain rfl | rfl | rfl := hsame <;> cases h <;> decide
    all_goals
      subst letter
      cases h
      decide
  · intro h
    simp only [shorthands, List.mem_cons, List.not_mem_nil, or_false, Prod.mk.injEq] at h
    rcases h with ⟨rfl, rfl⟩ | ⟨rfl, rfl⟩ | ⟨rfl, rfl⟩ | ⟨rfl, rfl⟩ | ⟨rfl, rfl⟩ | ⟨rfl, rfl⟩ |
      ⟨rfl, rfl⟩ | ⟨rfl, rfl⟩ <;> rfl

theorem ne_of_mem_shorthands {letter c : Char} (h : (letter, c) ∈ shorthands) : letter ≠ 'u' := by
  rintro rfl
  rw [← escaped?_eq_some_iff] at h
  cases h

theorem codeUnit?_eq_some_iff {x y z w : Char} {n : Nat} :
    codeUnit? x y z w = some n ↔ Text.AreDigits 16 [x, y, z, w] n := by
  have hdigit {c : Char} {d : Nat} : Text.digitValue? 16 c = some d ↔ Text.IsDigit 16 c d :=
    Text.digitValue?_eq_some_iff (Nat.le_refl 16)
  have hvalue (a b c d : Nat) :
      a * 4096 + b * 256 + c * 16 + d = Nat.ofDigits 16 [a, b, c, d].reverse := by
    simp [Nat.ofDigits_cons]
    omega
  constructor
  · intro h
    unfold codeUnit? at h
    split at h
    · rename_i a b c d ha hb hc hd
      cases h
      refine ⟨List.cons_ne_nil _ _, [a, b, c, d], ?_, hvalue a b c d⟩
      exact .cons (hdigit.mp ha) (.cons (hdigit.mp hb) (.cons (hdigit.mp hc)
        (.cons (hdigit.mp hd) .nil)))
    · cases h
  · rintro ⟨-, ds, hds, rfl⟩
    obtain ⟨a, _, ha, hyzw, rfl⟩ := List.forall₂_cons_left_iff.mp hds
    obtain ⟨b, _, hb, hzw, rfl⟩ := List.forall₂_cons_left_iff.mp hyzw
    obtain ⟨c, _, hc, hw, rfl⟩ := List.forall₂_cons_left_iff.mp hzw
    obtain ⟨d, _, hd, hnil, rfl⟩ := List.forall₂_cons_left_iff.mp hw
    obtain rfl := List.forall₂_nil_left_iff.mp hnil
    rw [codeUnit?, hdigit.mpr ha, hdigit.mpr hb, hdigit.mpr hc, hdigit.mpr hd]
    exact congrArg some (hvalue a b c d)

theorem isHighHalf_iff {n : Nat} :
    isHighHalf n = true ↔ ∃ high < 0x400, n = 0xD800 + high := by
  simp only [isHighHalf, Bool.and_eq_true, decide_eq_true_eq]
  constructor
  · exact fun h => ⟨n - 0xD800, by omega, by omega⟩
  · rintro ⟨high, hhigh, rfl⟩
    omega

theorem isLowHalf_iff {n : Nat} : isLowHalf n = true ↔ ∃ low < 0x400, n = 0xDC00 + low := by
  simp only [isLowHalf, Bool.and_eq_true, decide_eq_true_eq]
  constructor
  · exact fun h => ⟨n - 0xDC00, by omega, by omega⟩
  · rintro ⟨low, hlow, rfl⟩
    omega

theorem isLowHalf_of_isHighHalf {n : Nat} (h : isHighHalf n = true) : isLowHalf n = false := by
  simp only [isHighHalf, Bool.and_eq_true, decide_eq_true_eq] at h
  simp only [isLowHalf, Bool.and_eq_false_iff, decide_eq_false_iff_not]
  omega

/-- No character is half of one. -/
theorem not_isHalf_toNat (c : Char) : isHighHalf c.toNat = false ∧ isLowHalf c.toNat = false := by
  have hvalid : c.toNat < 0xD800 ∨ 0xDFFF < c.toNat ∧ c.toNat < 0x110000 := c.valid
  simp only [isHighHalf, isLowHalf, Bool.and_eq_false_iff, decide_eq_false_iff_not]
  omega

theorem unescape?_halves {x y z w x' y' z' w' : Char} {high low : Nat}
    (hhigh : codeUnit? x y z w = some high) (hlow : codeUnit? x' y' z' w' = some low)
    (hhigh' : isHighHalf high = true) (hlow' : isLowHalf low = true) (rest : List Char) :
    unescape? ('\\' :: 'u' :: x :: y :: z :: w :: '\\' :: 'u' :: x' :: y' :: z' :: w' :: rest) =
      (unescape? rest).map (joinHalves high low :: ·) := by
  rw [unescape?.eq_2, hhigh]
  simp only [isLowHalf_of_isHighHalf hhigh', hhigh', hlow, hlow', if_true,
    if_neg Bool.false_ne_true]

theorem joinHalves_add {c : Char} {high low : Nat}
    (hc : c.toNat = 0x10000 + high * 0x400 + low) :
    joinHalves (0xD800 + high) (0xDC00 + low) = c := by
  rw [joinHalves, Nat.add_sub_cancel_left, Nat.add_sub_cancel_left, ← hc, Char.ofNat_toNat]

theorem toNat_ofNat {n : Nat} (h : n.isValidChar) : (Char.ofNat n).toNat = n := by
  rw [Char.ofNat, dif_pos h]
  rfl

theorem toNat_joinHalves {high low : Nat} (hhigh : high < 0x400) (hlow : low < 0x400) :
    (joinHalves (0xD800 + high) (0xDC00 + low)).toNat = 0x10000 + high * 0x400 + low := by
  have hvalid : (0x10000 + high * 0x400 + low).isValidChar := .inr ⟨by omega, by omega⟩
  rw [joinHalves, Nat.add_sub_cancel_left, Nat.add_sub_cancel_left, toNat_ofNat hvalid]

/-- Sixteen bits that are no half are a character. -/
theorem isValidChar_of_not_isHalf {n : Nat} (h : n < 0x10000) (hhigh : ¬isHighHalf n = true)
    (hlow : ¬isLowHalf n = true) : n.isValidChar := by
  simp only [isHighHalf, isLowHalf, Bool.and_eq_true, decide_eq_true_eq] at hhigh hlow
  rw [Nat.isValidChar]
  omega

theorem Between.takeText_eq {raw : List Char} (h : Between raw) (rest : List Char) :
    takeText (raw ++ '"' :: rest) = (raw, some rest) := by
  induction h with
  | nil => exact takeText_quote rest
  | plain hquote hslash hcontrol _ ih =>
    rw [List.cons_append, takeText_plain hquote hslash hcontrol, ih]
  | letter hletter _ ih =>
    rw [List.cons_append, List.cons_append,
      takeText_letter (ne_of_mem_shorthands hletter) (escaped?_eq_some_iff.mpr hletter), ih]
  | unit hunit _ ih =>
    simp only [List.cons_append]
    rw [takeText_unit (codeUnit?_eq_some_iff.mpr hunit), ih]

theorem Quoted.between {raw text : List Char} (h : Quoted raw text) : Between raw := by
  induction h with
  | nil => exact .nil
  | plain hquote hslash hcontrol _ ih => exact .plain hquote hslash hcontrol ih
  | letter hletter _ ih => exact .letter hletter ih
  | unit hunit _ ih => exact .unit hunit ih
  | halves hhigh _ hlow _ _ _ ih => exact .unit hhigh (.unit hlow ih)

theorem Quoted.unescape?_eq {raw text : List Char} (h : Quoted raw text) :
    unescape? raw = some text := by
  induction h with
  | nil => rfl
  | plain _ hslash _ _ ih =>
    rw [unescape?_plain hslash, ih]
    rfl
  | letter hletter _ ih =>
    rw [unescape?_letter (ne_of_mem_shorthands hletter) (escaped?_eq_some_iff.mpr hletter), ih]
    rfl
  | @unit _ _ _ _ c _ _ hunit _ ih =>
    have hhalf := not_isHalf_toNat c
    rw [unescape?_unit (codeUnit?_eq_some_iff.mpr hunit) hhalf.1 hhalf.2, ih, Char.ofNat_toNat]
    rfl
  | halves hhigh hhigh' hlow hlow' hc _ ih =>
    rw [unescape?_halves (codeUnit?_eq_some_iff.mpr hhigh) (codeUnit?_eq_some_iff.mpr hlow)
      (isHighHalf_iff.mpr ⟨_, hhigh', rfl⟩) (isLowHalf_iff.mpr ⟨_, hlow', rfl⟩), ih,
      joinHalves_add hc]
    rfl

theorem Between.of_unit {x y z w : Char} {raw : List Char}
    (h : Between ('\\' :: 'u' :: x :: y :: z :: w :: raw)) : Between raw := by
  cases h with
  | plain _ hslash => exact absurd rfl hslash
  | letter hletter => exact absurd rfl (ne_of_mem_shorthands hletter)
  | unit _ h => exact h

theorem Between.of_letter {letter c : Char} {raw : List Char} (hletter : (letter, c) ∈ shorthands)
    (h : Between ('\\' :: letter :: raw)) : Between raw := by
  cases h with
  | plain _ hslash => exact absurd rfl hslash
  | letter _ h => exact h
  | unit => exact absurd rfl (ne_of_mem_shorthands hletter)

theorem Between.of_plain {c : Char} {raw : List Char} (hslash : c ≠ '\\')
    (h : Between (c :: raw)) : c ≠ '"' ∧ 0x20 ≤ c.toNat ∧ Between raw := by
  cases h with
  | plain hquote _ hcontrol h => exact ⟨hquote, hcontrol, h⟩
  | letter => exact absurd rfl hslash
  | unit => exact absurd rfl hslash

/-- What stands between quotes spells the text that it is read as. -/
theorem Between.quoted {raw text : List Char} (h : Between raw)
    (hread : unescape? raw = some text) : Quoted raw text := by
  revert h hread
  fun_induction unescape? raw generalizing text with
  | case1 =>
    rintro - ⟨⟩
    exact .nil
  | case5 x y z w n hunit _ hhalf x' y' z' w' rest n' hunit' hhalf' ih =>
    intro h hread
    obtain ⟨high, hhigh, rfl⟩ := isHighHalf_iff.mp hhalf
    obtain ⟨low, hlow, rfl⟩ := isLowHalf_iff.mp hhalf'
    obtain ⟨tail, htail, rfl⟩ := Option.map_eq_some_iff.mp hread
    exact .halves (codeUnit?_eq_some_iff.mp hunit) hhigh (codeUnit?_eq_some_iff.mp hunit') hlow
      (toNat_joinHalves hhigh hlow) (ih h.of_unit.of_unit htail)
  | case8 x y z w rest n hunit hlow hhigh ih =>
    intro h hread
    obtain ⟨tail, htail, rfl⟩ := Option.map_eq_some_iff.mp hread
    have hdigits := codeUnit?_eq_some_iff.mp hunit
    have hlt : n < 0x10000 := by simpa using hdigits.lt (by decide)
    refine .unit ?_ (ih h.of_unit htail)
    rwa [toNat_ofNat (isValidChar_of_not_isHalf hlt hhigh hlow)]
  | case10 letter rest _ c hletter ih =>
    intro h hread
    obtain ⟨tail, htail, rfl⟩ := Option.map_eq_some_iff.mp hread
    have hmem := escaped?_eq_some_iff.mp hletter
    exact .letter hmem (ih (h.of_letter hmem) htail)
  | case12 c rest _ _ hslash ih =>
    intro h hread
    obtain ⟨tail, htail, rfl⟩ := Option.map_eq_some_iff.mp hread
    obtain ⟨hquote, hcontrol, hrest⟩ := h.of_plain hslash
    exact .plain hquote hslash hcontrol (ih hrest htail)
  | _ => rintro - ⟨⟩

theorem quoted_escapeChar {raw text : List Char} (c : Char) (h : Quoted raw text) :
    Quoted (escapeChar c ++ raw) (c :: text) := by
  obtain ⟨letter, hletter, hc⟩ | ⟨hcontrol, hc⟩ | ⟨hquote, hslash, hplain, hc⟩ :=
    escapeChar_cases c
  · rw [hc]
    exact .letter (escaped?_eq_some_iff.mp hletter) h
  · obtain ⟨x, y, z, w, hdigits, hunit⟩ :=
      exists_codeUnit?_fixed (Nat.lt_trans hcontrol (by decide))
    rw [hc, hdigits]
    exact .unit (codeUnit?_eq_some_iff.mp hunit) h
  · rw [hc]
    exact .plain hquote hslash hplain h

/-- What is escaped spells what it was. -/
theorem quoted_escape (text : List Char) : Quoted (escape text) text := by
  induction text with
  | nil => exact .nil
  | cons c text ih => exact quoted_escapeChar c ih

theorem Quoted.readRaw_eq {raw : List Char} {text : String} (h : Quoted raw text.toList) :
    readRaw raw = .ok text := by
  rw [readRaw, h.unescape?_eq]
  exact congrArg Except.ok String.ofList_toList

/-! ### Numbers -/

namespace Numeral

/-- How the end of a numeral can be spelled. -/
inductive ExponentWritten : Option Exponent → List Char → Prop where
  | none : ExponentWritten none []
  | plain {mark : Char} {digits : List Char} (hmark : mark = 'e' ∨ mark = 'E')
      (hsome : digits ≠ []) (hdigits : ∀ c ∈ digits, c.isDigit = true) :
      ExponentWritten (some ⟨false, digits⟩) (mark :: digits)
  | signed {mark sign : Char} {digits : List Char} (hmark : mark = 'e' ∨ mark = 'E')
      (hsign : sign = '+' ∨ sign = '-') (hsome : digits ≠ [])
      (hdigits : ∀ c ∈ digits, c.isDigit = true) :
      ExponentWritten (some ⟨sign == '-', digits⟩) (mark :: sign :: digits)

/-- The sign of a numeral as it is spelled. -/
def sign (n : Numeral) : List Char :=
  if n.negative then ['-'] else []

/-- The digits behind the point with the point. -/
def point (fraction : List Char) : List Char :=
  if fraction = [] then [] else '.' :: fraction

/-- How a numeral can be spelled. No whole part starts with a zero but zero itself. -/
structure Written (n : Numeral) (text : List Char) : Prop where
  whole_ne_nil : n.whole ≠ []
  whole : ∀ c ∈ n.whole, c.isDigit = true
  zero : n.whole.head? = some '0' → n.whole = ['0']
  fraction : ∀ c ∈ n.fraction, c.isDigit = true
  spelled : ∃ exponent, ExponentWritten n.exponent exponent ∧
    text = n.sign ++ (n.whole ++ (point n.fraction ++ exponent))

theorem takeSign_of_not_mem {signs : List Char} {c : Char} (h : c ∉ signs) (rest : List Char) :
    takeSign signs (c :: rest) = (none, c :: rest) := by
  rw [takeSign, if_neg h]

theorem takeSign_of_mem {signs : List Char} {c : Char} (h : c ∈ signs) (rest : List Char) :
    takeSign signs (c :: rest) = (some c, rest) := by
  rw [takeSign, if_pos h]

theorem not_mem_signs {c : Char} (h : c.isDigit = true) : c ∉ ['+', '-'] := by
  simp [ne_of_isDigit h]

theorem ExponentWritten.takeExponent?_eq {exponent : Option Exponent} {text rest : List Char}
    (h : ExponentWritten exponent text) (hends : Ends rest) :
    takeExponent? (text ++ rest) = some (exponent, rest) := by
  cases h with
  | none => exact takeExponent?_of_ends hends
  | @plain mark digits hmark hsome hdigits =>
    obtain ⟨c, tail, rfl⟩ := List.exists_cons_of_ne_nil hsome
    have hspan := span_isDigit hdigits hends.not_isDigit
    rw [List.cons_append, takeExponent?, if_pos hmark, List.cons_append,
      takeSign_of_not_mem (not_mem_signs (hdigits c List.mem_cons_self))]
    rw [List.cons_append] at hspan
    simp only [hspan]
    rfl
  | @signed mark sign digits hmark hsign hsome hdigits =>
    obtain ⟨c, tail, rfl⟩ := List.exists_cons_of_ne_nil hsome
    have hspan := span_isDigit hdigits hends.not_isDigit
    rw [List.cons_append, List.cons_append, takeExponent?, if_pos hmark,
      takeSign_of_mem (by simpa using hsign)]
    simp only [hspan]
    rfl

/-- The digits of a numeral end where its exponent starts. -/
theorem ExponentWritten.head {exponent : Option Exponent} {text rest : List Char}
    (h : ExponentWritten exponent text) (hends : Ends rest) :
    ∀ c ∈ (text ++ rest).head?, c.isDigit = false ∧ c ≠ '.' := by
  cases h with
  | none =>
    intro c hc
    refine ⟨hends.not_isDigit c hc, ?_⟩
    rintro rfl
    exact absurd (hends '.' hc) (by decide)
  | plain hmark | signed hmark =>
    rintro c ⟨⟩
    obtain rfl | rfl := hmark <;> decide

theorem takeFraction?_point {fraction rest : List Char}
    (hfraction : ∀ c ∈ fraction, c.isDigit = true)
    (hrest : ∀ c ∈ rest.head?, c.isDigit = false ∧ c ≠ '.') :
    takeFraction? (point fraction ++ rest) = some (fraction, rest) := by
  cases fraction with
  | nil =>
    cases rest with
    | nil => rfl
    | cons c rest =>
      refine takeFraction?.eq_2 (c :: rest) fun _ heq => ?_
      exact (hrest c rfl).2 (List.cons.inj heq).1
  | cons c tail =>
    have hspan := span_isDigit hfraction fun c hc => (hrest c hc).1
    have hpoint : point (c :: tail) ++ rest = '.' :: (c :: tail ++ rest) := rfl
    rw [hpoint, takeFraction?, hspan]

theorem head?_point (fraction : List Char) {rest : List Char}
    (hrest : ∀ c ∈ rest.head?, c.isDigit = false ∧ c ≠ '.') :
    ∀ c ∈ (point fraction ++ rest).head?, c.isDigit = false := by
  cases fraction with
  | nil => exact fun c hc => (hrest c hc).1
  | cons first tail =>
    rintro c ⟨⟩
    rfl

theorem takeSign_sign (n : Numeral) {rest : List Char}
    (hrest : ∀ c ∈ rest.head?, c.isDigit = true) :
    ((takeSign ['-'] (n.sign ++ rest)).1.isSome, (takeSign ['-'] (n.sign ++ rest)).2) =
      (n.negative, rest) := by
  rw [sign]
  cases n.negative with
  | true => rfl
  | false =>
    cases rest with
    | nil => rfl
    | cons c rest =>
      have hminus : c ∉ ['-'] := by
        simp [ne_of_isDigit (hrest c rfl)]
      rw [if_neg Bool.false_ne_true, List.nil_append, takeSign_of_not_mem hminus]
      rfl

/-- A numeral is taken to its last character. -/
theorem Written.take?_eq {n : Numeral} {text rest : List Char} (h : n.Written text)
    (hends : Ends rest) : take? (text ++ rest) = some (n, rest) := by
  obtain ⟨hsome, hwhole, hzero, hfraction, exponent, hexponent, rfl⟩ := h
  have hhead := hexponent.head hends
  have hvalid : ¬(n.whole = [] ∨ (n.whole.head? = some '0' ∧ n.whole ≠ ['0'])) := by
    rintro (hnil | ⟨hfirst, hne⟩)
    · exact hsome hnil
    · exact hne (hzero hfirst)
  have hspan := span_isDigit hwhole (head?_point n.fraction hhead)
  have hfirst : ∀ c ∈ (n.whole ++ (point n.fraction ++ (exponent ++ rest))).head?,
      c.isDigit = true := by
    obtain ⟨c, tail, hcons⟩ := List.exists_cons_of_ne_nil hsome
    rw [hcons] at hwhole ⊢
    rintro c ⟨⟩
    exact hwhole c List.mem_cons_self
  obtain ⟨hnegative, hrest⟩ := Prod.mk.inj (n.takeSign_sign hfirst)
  simp only [List.append_assoc, take?, hrest, hspan, if_neg hvalid, hnegative,
    takeFraction?_point hfraction hhead, hexponent.takeExponent?_eq hends]

/-- A numeral starts with its minus or a digit. -/
theorem Written.exists_eq_cons {n : Numeral} {text : List Char} (h : n.Written text) :
    ∃ c tail, text = c :: tail ∧ (c = '-' ∨ c.isDigit = true) := by
  obtain ⟨hsome, hwhole, -, -, exponent, -, rfl⟩ := h
  obtain ⟨c, tail, hcons⟩ := List.exists_cons_of_ne_nil hsome
  rw [sign]
  split
  · exact ⟨_, _, rfl, .inl rfl⟩
  · rw [hcons]
    exact ⟨_, _, rfl, .inr (hwhole c (hcons ▸ List.mem_cons_self))⟩

/-- A whole number in plain decimal. -/
def ofInt (n : Int) : Numeral :=
  ⟨decide (n < 0), Nat.toDigits 10 n.natAbs, [], none⟩

theorem ofInt_natCast (n : Nat) : ofInt n = ofNat n := by
  simp [ofInt, ofNat]

/-- It is spelled by its digits, behind its sign. -/
theorem written_ofInt (n : Int) :
    (ofInt n).Written ((ofInt n).sign ++ Nat.toDigits 10 n.natAbs) where
  whole_ne_nil := Nat.toDigits_ne_nil
  whole := isDigit_toDigits n.natAbs
  zero := toDigits_of_head?_zero
  fraction := fun _ hc => absurd hc List.not_mem_nil
  spelled := ⟨[], .none, by simp [ofInt, point]⟩

theorem written_ofNat (n : Nat) : (ofNat n).Written (Nat.toDigits 10 n) := by
  have hwritten := written_ofInt n
  rwa [ofInt_natCast] at hwritten

theorem take?_toDigits (n : Nat) {rest : List Char} (h : Ends rest) :
    take? (Nat.toDigits 10 n ++ rest) = some (ofNat n, rest) :=
  (written_ofNat n).take?_eq h

theorem gather_toDigits {n : Nat} (h : n < UInt64.size) :
    gather 0 (Nat.toDigits 10 n) = (n, []) := by
  have hdigits := digitsValue_toDigits n
  rw [digitsValue] at hdigits
  rw [gather_eq (hdigits.symm ▸ h), hdigits]

/-- A whole number that fits a machine word is worth itself. -/
theorem integer?_ofInt {n : Int} (hleast : -(UInt64.size / 2 : Nat) ≤ n) (h : n < UInt64.size) :
    (ofInt n).integer? = some n := by
  have hgather := gather_toDigits (n := n.natAbs) (by omega)
  rw [integer?, if_neg (by simp [ofInt]), show (ofInt n).whole = Nat.toDigits 10 n.natAbs from rfl,
    hgather]
  by_cases hn : n < 0
  · have hfits : n.natAbs ≠ 0 ∧ n.natAbs ≤ UInt64.size / 2 := by omega
    have hvalue : -(n.natAbs : Int) = n := by omega
    simp only [if_neg (show ¬(ofInt n).negative = false by simpa [ofInt] using hn), if_pos hfits,
      hvalue]
  · have hvalue : (n.natAbs : Int) = n := by omega
    simp only [if_pos (show (ofInt n).negative = false by simpa [ofInt] using hn), hvalue]

/-- A whole number of any size is worth no other. -/
theorem eq_of_integer?_ofInt {n value : Int} (h : (ofInt n).integer? = some value) :
    value = n := by
  unfold integer? at h
  rw [if_neg (by simp [ofInt])] at h
  split at h
  · rename_i gathered hgather
    have hvalue := eq_of_gather_eq hgather
    rw [← digitsValue, show (ofInt n).whole = Nat.toDigits 10 n.natAbs from rfl,
      digitsValue_toDigits] at hvalue
    by_cases hn : n < 0
    · rw [if_neg (by simpa [ofInt] using hn)] at h
      obtain ⟨-, heq⟩ := Option.ite_none_right_eq_some.mp h
      have hvalue' : -(gathered : Int) = value := Option.some.inj heq
      omega
    · rw [if_pos (by simpa [ofInt] using hn)] at h
      have hvalue' : (gathered : Int) = value := Option.some.inj h
      omega
  · cases h

theorem quantity?_ofNat {n : Nat} (h : n < UInt64.size) :
    (ofNat n).quantity? = some (.integer n) := by
  rw [quantity?, ← ofInt_natCast, integer?_ofInt (by omega) (by omega)]

end Numeral

end Lifeline.Json
