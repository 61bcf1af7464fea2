import Lifeline.Proofs.Json.Layout
import Mathlib.Data.List.Chain

/-! Texts with any white space and in any spelling.

A text has tokens if it has them one after the other, each in one of its spellings and with any
white space around it (`Written`). That alone does not say where a numeral ends; but in a tree
nothing stands behind a number without a mark between (`Tree.apart_tokens`), and so a text that has
the tokens of a tree is read as the tree (`Written.ofText_eq`). -/
namespace Lifeline.Json

/-- The brackets, the braces, the colon and the comma. -/
def marks : List (Char × Token) :=
  [ ('{', .openBrace), ('}', .closeBrace), ('[', .openBracket), (']', .closeBracket),
    (':', .colon), (',', .comma) ]

/-- How a token can be spelled. -/
inductive Token.Written : Token → List Char → Prop where
  | mark {c : Char} {t : Token} (h : (c, t) ∈ marks) : Written t [c]
  | null : Written .null "null".toList
  | bool (value : Bool) : Written (.bool value) (if value then "true" else "false").toList
  | number {n : Numeral} {text : List Char} (h : n.Written text) : Written (.number n) text
  | text {raw : List Char} (h : Between raw) : Written (.text raw) ('"' :: (raw ++ ['"']))

/-- Nothing but white space. -/
def Blank (text : List Char) : Prop :=
  ∀ c ∈ text, c ∈ [' ', '\n', '\t', '\r']

/-- A text has these tokens, in any of their spellings and with any white space around them. -/
inductive Written : List Token → List Char → Prop where
  | nil {blank : List Char} (hblank : Blank blank) : Written [] blank
  | cons (blank spelling : List Char) {rest : List Char} {t : Token} {ts : List Token}
      (hblank : Blank blank) (ht : t.Written spelling) (h : Written ts rest) :
      Written (t :: ts) (blank ++ (spelling ++ rest))

theorem mark?_eq_some_iff {c : Char} {t : Token} : mark? c = some t ↔ (c, t) ∈ marks := by
  constructor
  · intro h
    unfold mark? at h
    split_ifs at h <;> subst c <;> cases h <;> decide
  · intro h
    simp only [marks, List.mem_cons, List.not_mem_nil, or_false, Prod.mk.injEq] at h
    rcases h with ⟨rfl, rfl⟩ | ⟨rfl, rfl⟩ | ⟨rfl, rfl⟩ | ⟨rfl, rfl⟩ | ⟨rfl, rfl⟩ | ⟨rfl, rfl⟩ <;>
      rfl

theorem Blank.isSpace {blank : List Char} (h : Blank blank) : ∀ c ∈ blank, isSpace c = true := by
  intro c hc
  simpa [Json.isSpace] using h c hc

/-- A bracket, a brace, a colon or a comma. -/
def Token.IsMark (t : Token) : Prop :=
  ∃ c, (c, t) ∈ marks

/-- What comes first, if anything, is a mark. -/
def Marked (ts : List Token) : Prop :=
  ∀ t ∈ ts.head?, t.IsMark

theorem marked_cons {t : Token} (h : t.IsMark) (ts : List Token) : Marked (t :: ts) := by
  rintro _ ⟨⟩
  exact h

/-- Only marks stand behind numbers. -/
def Apart (ts : List Token) : Prop :=
  ts.IsChain fun t next => (∃ n, t = .number n) → next.IsMark

theorem Apart.cons_of_marked {ts : List Token} (h : Apart ts) (hmarked : Marked ts) (t : Token) :
    Apart (t :: ts) :=
  List.isChain_cons.mpr ⟨fun next hnext _ => hmarked next hnext, h⟩

theorem Apart.cons {ts : List Token} (h : Apart ts) {t : Token} (ht : ∀ n, t ≠ .number n) :
    Apart (t :: ts) :=
  List.isChain_cons.mpr ⟨fun _ _ ⟨n, hn⟩ => absurd hn (ht n), h⟩

namespace Tree

mutual

theorem apart_tokens : ∀ (t : Tree) {ts : List Token}, Apart ts → Marked ts →
    Apart (t.tokens ++ ts)
  | null, _, h, hmarked => h.cons_of_marked hmarked _
  | bool _, _, h, hmarked => h.cons_of_marked hmarked _
  | number _, _, h, hmarked => h.cons_of_marked hmarked _
  | text _, _, h, hmarked => h.cons_of_marked hmarked _
  | array items, ts, h, hmarked => by
    have hend := h.cons_of_marked hmarked .closeBracket
    have hitems := apart_itemTokens items hend (marked_cons ⟨']', by decide⟩ ts)
    rw [tokens, List.cons_append, List.append_assoc]
    exact hitems.cons fun _ => Token.noConfusion
  | object members, ts, h, hmarked => by
    have hend := h.cons_of_marked hmarked .closeBrace
    have hmembers := apart_memberTokens members hend (marked_cons ⟨'}', by decide⟩ ts)
    rw [tokens, List.cons_append, List.append_assoc]
    exact hmembers.cons fun _ => Token.noConfusion

theorem apart_itemTokens : ∀ (items : List Tree) {ts : List Token}, Apart ts → Marked ts →
    Apart (itemTokens items ++ ts)
  | [], _, h, _ => h
  | [item], _, h, hmarked => apart_tokens item h hmarked
  | item :: next :: rest, _, h, hmarked => by
    have hrest := apart_itemTokens (next :: rest) h hmarked
    rw [itemTokens_cons_cons, List.append_assoc]
    exact apart_tokens item (hrest.cons fun _ => Token.noConfusion) (marked_cons ⟨',', by decide⟩ _)

theorem apart_memberTokens : ∀ (members : List (List Char × Tree)) {ts : List Token}, Apart ts →
    Marked ts → Apart (memberTokens members ++ ts)
  | [], _, h, _ => h
  | [(_, value)], _, h, hmarked =>
    ((apart_tokens value h hmarked).cons fun _ => Token.noConfusion).cons fun _ =>
      Token.noConfusion
  | (raw, value) :: next :: rest, ts, h, hmarked => by
    have hrest := apart_memberTokens (next :: rest) h hmarked
    have hcomma := hrest.cons (t := .comma) fun _ => Token.noConfusion
    have hvalue := apart_tokens value hcomma
      (marked_cons ⟨',', by decide⟩ _)
    have hcolon := hvalue.cons (t := .colon) fun _ => Token.noConfusion
    change Apart (.text raw :: .colon ::
      (value.tokens ++ .comma :: memberTokens (next :: rest) ++ ts))
    rw [List.append_assoc]
    exact hcolon.cons fun _ => Token.noConfusion

end

end Tree

/-! ### What is read -/

theorem Blank.ends {blank rest : List Char} (hblank : Blank blank) (h : Numeral.Ends rest) :
    Numeral.Ends (blank ++ rest) := by
  cases blank with
  | nil => exact h
  | cons c blank =>
    have hspace : Numeral.goesOn c = false := by
      have hc := hblank c List.mem_cons_self
      simp only [List.mem_cons, List.not_mem_nil, or_false] at hc
      obtain rfl | rfl | rfl | rfl := hc <;> rfl
    exact Numeral.ends_cons hspace _

theorem Token.IsMark.ends {t : Token} (h : t.IsMark) {spelling : List Char}
    (ht : t.Written spelling) (rest : List Char) : Numeral.Ends (spelling ++ rest) := by
  cases ht with
  | @mark c _ hmark =>
    have hends : ∀ m ∈ marks, Numeral.goesOn m.1 = false := by decide
    exact Numeral.ends_cons (hends (c, t) hmark) rest
  | null | bool | number | text =>
    obtain ⟨c, hmark⟩ := h
    simp [marks] at hmark

theorem Written.ends {ts : List Token} {text : List Char} (h : Written ts text)
    (hmarked : Marked ts) : Numeral.Ends text := by
  cases h with
  | nil hblank => simpa using hblank.ends Numeral.ends_nil
  | cons blank spelling hblank ht _ => exact hblank.ends ((hmarked _ rfl).ends ht _)

theorem Written.spells {ts : List Token} {text : List Char} (h : Written ts text)
    (hapart : Apart ts) : Spells ts text := by
  induction h with
  | nil hblank => simpa using Spells.nil.blank hblank.isSpace
  | cons blank spelling hblank ht hrest ih =>
    obtain ⟨hnext, hrestApart⟩ := List.isChain_cons.mp hapart
    have hspells := ih hrestApart
    refine Spells.blank hblank.isSpace ?_
    cases ht with
    | mark hmark => exact hspells.mark _ (mark?_eq_some_iff.mpr hmark)
    | null => exact hspells.null
    | bool value => cases value <;> exact hspells.bool _
    | number hn =>
      have hmarked : Marked _ := fun next hmem => hnext next hmem ⟨_, rfl⟩
      exact hspells.numeral hn (hrest.ends hmarked)
    | text hraw => simpa using hspells.quoted hraw

/-- A text that has the tokens of a tree is read as the tree. -/
theorem Written.ofText_eq {t : Tree} {text : List Char} (h : Written t.tokens text) :
    Document.ofText text = ⟨t.outline, false⟩ := by
  have hapart : Apart (t.tokens ++ []) := t.apart_tokens .nil (fun _ hnone => nomatch hnone)
  rw [List.append_nil] at hapart
  exact (h.spells hapart).ofText_eq

/-! ### Names and texts in a tree -/

theorem Written.between {ts : List Token} {text raw : List Char} (h : Written ts text)
    (hraw : .text raw ∈ ts) : Between raw := by
  induction h with
  | nil => exact absurd hraw List.not_mem_nil
  | cons _ _ _ ht _ ih =>
    obtain rfl | hmem := List.mem_cons.mp hraw
    · cases ht with
      | text hbetween => exact hbetween
      | mark hmark => simp [marks] at hmark
    · exact ih hmem

namespace Tree

theorem tokens_subset_itemTokens {item : Tree} {items : List Tree} (h : item ∈ items) :
    item.tokens ⊆ itemTokens items := by
  induction items with
  | nil => exact absurd h List.not_mem_nil
  | cons first rest ih =>
    cases rest with
    | nil => exact List.mem_singleton.mp h ▸ List.Subset.refl _
    | cons next rest =>
      rw [itemTokens_cons_cons]
      obtain rfl | hmem := List.mem_cons.mp h
      · exact List.subset_append_left _ _
      · exact List.subset_append_of_subset_right _ (List.subset_cons_of_subset _ (ih hmem))

/-- The tokens of a member are its name, a colon and the tokens of its value. -/
theorem tokens_subset_memberTokens {m : List Char × Tree} {members : List (List Char × Tree)}
    (h : m ∈ members) : .text m.1 :: .colon :: m.2.tokens ⊆ memberTokens members := by
  induction members with
  | nil => exact absurd h List.not_mem_nil
  | cons first rest ih =>
    cases rest with
    | nil => exact List.mem_singleton.mp h ▸ List.Subset.refl _
    | cons next rest =>
      have hcons : memberTokens (first :: next :: rest) =
          (.text first.1 :: .colon :: first.2.tokens) ++ .comma :: memberTokens (next :: rest) :=
        rfl
      rw [hcons]
      obtain rfl | hmem := List.mem_cons.mp h
      · exact List.subset_append_left _ _
      · exact List.subset_append_of_subset_right _ (List.subset_cons_of_subset _ (ih hmem))

end Tree

end Lifeline.Json
