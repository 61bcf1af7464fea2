import Lifeline.Text.Blank

/-! Which words a text starts with.

A text starts with some words if it has them one after the other with white space between, whatever
comes behind the last (`StartsWith`). These are the first of its words (`startsWith_iff_prefix`). -/
namespace Lifeline.Text

/-- The characters with the Unicode property White_Space. -/
def whiteSpace : List Nat :=
  [ 0x9, 0xA, 0xB, 0xC, 0xD, 0x20, 0x85, 0xA0, 0x1680, 0x2000, 0x2001, 0x2002, 0x2003, 0x2004,
    0x2005, 0x2006, 0x2007, 0x2008, 0x2009, 0x200A, 0x2028, 0x2029, 0x202F, 0x205F, 0x3000 ]

/-- Nothing but white space. -/
def AllBlank (text : List Char) : Prop :=
  ∀ c ∈ text, c.toNat ∈ whiteSpace

/-- A piece of text without white space. -/
def IsWord (text : List Char) : Prop :=
  text ≠ [] ∧ ∀ c ∈ text, c.toNat ∉ whiteSpace

/-- What may stand behind a word: nothing, or white space first. -/
def IsBreak (text : List Char) : Prop :=
  ∀ c ∈ text.head?, c.toNat ∈ whiteSpace

/-- A text has these words first, any white space standing before them. -/
inductive StartsWith : List (List Char) → List Char → Prop where
  | nil (rest : List Char) : StartsWith [] rest
  | cons {blank word rest : List Char} {more : List (List Char)}
      (hblank : AllBlank blank) (hword : IsWord word) (hbreak : IsBreak rest)
      (h : StartsWith more rest) : StartsWith (word :: more) (blank ++ (word ++ rest))

theorem isBlank_iff {c : Char} : isBlank c = true ↔ c.toNat ∈ whiteSpace := by
  simp only [isBlank, whiteSpace, Bool.or_eq_true, Bool.and_eq_true, decide_eq_true_eq,
    beq_iff_eq, List.mem_cons, List.not_mem_nil, or_false]
  omega

theorem isBlank_eq_false_iff {c : Char} : isBlank c = false ↔ c.toNat ∉ whiteSpace := by
  rw [← isBlank_iff, Bool.not_eq_true]

theorem words_nil : words [] = [] :=
  rfl

theorem words_blank_cons {c : Char} (h : c.toNat ∈ whiteSpace) (rest : List Char) :
    words (c :: rest) = words rest := by
  rw [words, List.splitOnP_cons_eq_if_modifyHead, if_pos (isBlank_iff.mpr h)]
  exact List.filter_cons_of_neg (by simp)

theorem words_blank_append {blank : List Char} (h : AllBlank blank)
    (rest : List Char) : words (blank ++ rest) = words rest := by
  induction blank with
  | nil => rfl
  | cons c blank ih =>
    obtain ⟨hc, hblank⟩ := List.forall_mem_cons.mp h
    rw [List.cons_append, words_blank_cons hc, ih hblank]

theorem words_word_append {word rest : List Char} (hword : IsWord word) (hbreak : IsBreak rest) :
    words (word ++ rest) = word :: words rest := by
  obtain ⟨hsome, hword⟩ := hword
  have hplain : ∀ c ∈ word, isBlank c = false := fun c hc =>
    isBlank_eq_false_iff.mpr (hword c hc)
  have hkept : (!word.isEmpty) = true := by
    simpa using hsome
  cases rest with
  | nil =>
    rw [List.append_nil, words, List.splitOnP_eq_singleton hplain]
    exact List.filter_cons_of_pos hkept
  | cons c rest =>
    have hc := hbreak c rfl
    rw [words_blank_cons hc, words,
      List.splitOnP_append_cons_of_forall_mem hplain c (isBlank_iff.mpr hc)]
    exact List.filter_cons_of_pos hkept

/-- A text is blank, or has a first word. -/
theorem blank_or_word (text : List Char) :
    AllBlank text ∨
      ∃ blank word rest, text = blank ++ (word ++ rest) ∧ AllBlank blank ∧ IsWord word ∧
        IsBreak rest := by
  induction text with
  | nil => exact .inl fun _ hc => absurd hc List.not_mem_nil
  | cons c text ih =>
    by_cases hc : c.toNat ∈ whiteSpace
    · obtain hall | ⟨blank, word, rest, rfl, hblank, hword, hbreak⟩ := ih
      · exact .inl (List.forall_mem_cons.mpr ⟨hc, hall⟩)
      · exact .inr ⟨c :: blank, word, rest, rfl, List.forall_mem_cons.mpr ⟨hc, hblank⟩, hword,
          hbreak⟩
    · refine .inr ⟨[], c :: text.takeWhile (!isBlank ·), text.dropWhile (!isBlank ·), ?_,
        fun _ hc => absurd hc List.not_mem_nil, ⟨List.cons_ne_nil _ _, ?_⟩, fun d hd => ?_⟩
      · rw [List.nil_append, List.cons_append, List.takeWhile_append_dropWhile]
      · refine List.forall_mem_cons.mpr ⟨hc, fun d hd => isBlank_eq_false_iff.mp ?_⟩
        simpa using List.all_eq_true.mp List.all_takeWhile d hd
      · have hstop := List.head?_dropWhile_not (!isBlank ·) text
        rw [Option.mem_def.mp hd] at hstop
        exact isBlank_iff.mp (by simpa using hstop)

/-- The words that a text starts with are its first words. -/
theorem startsWith_iff_prefix {ws : List (List Char)} {text : List Char} :
    StartsWith ws text ↔ ws <+: words text := by
  constructor
  · intro h
    induction h with
    | nil => exact List.nil_prefix
    | cons hblank hword hbreak _ ih =>
      rw [words_blank_append hblank, words_word_append hword hbreak]
      exact List.cons_prefix_cons.mpr ⟨rfl, ih⟩
  · intro h
    induction ws generalizing text with
    | nil => exact .nil text
    | cons word more ih =>
      obtain hblank | ⟨blank, first, rest, rfl, hblank, hword, hbreak⟩ := blank_or_word text
      · have hnone := words_blank_append hblank []
        rw [List.append_nil, words_nil] at hnone
        rw [hnone] at h
        cases List.prefix_nil.mp h
      · rw [words_blank_append hblank, words_word_append hword hbreak] at h
        obtain ⟨rfl, hmore⟩ := List.cons_prefix_cons.mp h
        exact .cons hblank hword hbreak (ih hmore)

end Lifeline.Text
