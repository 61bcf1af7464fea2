import Lifeline.Json.Outline
import Lifeline.Proofs.Json.Grammar

/-! JSON texts without faults.

A `Tree` is a value as a faultless text has it. Whatever text spells its tokens, with any white
space around them (`Spells`), is read as the tree and has nothing behind it
(`Spells.ofText_eq`). Both layouts of a written value spell the tokens of one tree
(`Value.spells_compact`, `Value.spells_pretty`), and so they are read alike. -/
namespace Lifeline.Json

/-! ### Tokens -/

/-- A text is these tokens, with any white space around each of them. -/
inductive Spells : List Token → List Char → Prop where
  | nil : Spells [] []
  | space (c : Char) {ts : List Token} {text : List Char} (hspace : isSpace c = true)
      (h : Spells ts text) : Spells ts (c :: text)
  | token (c : Char) (spelling : List Char) {t : Token} {ts : List Token} {text : List Char}
      (hspace : isSpace c = false) (htake : takeToken c (spelling ++ text) = (t, some text))
      (h : Spells ts text) : Spells (t :: ts) (c :: (spelling ++ text))

namespace Spells

variable {ts : List Token} {rest : List Char}

theorem tokensWithin_eq {text : List Char} (h : Spells ts text) {fuel : Nat}
    (hfuel : text.length ≤ fuel) : tokensWithin fuel text = ts := by
  induction h generalizing fuel with
  | nil => cases fuel <;> rfl
  | space c hspace _ ih =>
    cases fuel with
    | zero => simp at hfuel
    | succ fuel =>
      rw [tokensWithin, if_pos hspace]
      exact ih (Nat.le_of_succ_le_succ hfuel)
  | token c spelling hspace htake _ ih =>
    cases fuel with
    | zero => simp at hfuel
    | succ fuel =>
      rw [tokensWithin, if_neg (by rw [hspace]; decide), htake]
      refine congrArg (List.cons _) (ih ?_)
      simp only [List.length_cons, List.length_append] at hfuel
      omega

theorem tokens_eq {text : List Char} (h : Spells ts text) : tokens text = ts :=
  h.tokensWithin_eq (Nat.le_refl _)

theorem blank {blank : List Char} (hblank : ∀ c ∈ blank, isSpace c = true) (h : Spells ts rest) :
    Spells ts (blank ++ rest) := by
  induction blank with
  | nil => exact h
  | cons c blank ih =>
    obtain ⟨hc, hrest⟩ := List.forall_mem_cons.mp hblank
    exact .space c hc (ih hrest)

theorem mark (c : Char) {t : Token} (hmark : mark? c = some t) (h : Spells ts rest) :
    Spells (t :: ts) (c :: rest) := by
  have hspace : isSpace c = false := by
    unfold mark? at hmark
    split_ifs at hmark <;> subst c <;> rfl
  refine .token c [] hspace ?_ h
  rw [takeToken, hmark]
  rfl

theorem null (h : Spells ts rest) : Spells (.null :: ts) ("null".toList ++ rest) :=
  .token 'n' ['u', 'l', 'l'] rfl (by simp [takeToken, mark?, dropNamed?, dropWord?]) h

theorem bool (value : Bool) (h : Spells ts rest) :
    Spells (.bool value :: ts) (writeBool value ++ rest) := by
  cases value
  · exact .token 'f' ['a', 'l', 's', 'e'] rfl (by simp [takeToken, mark?, dropNamed?, dropWord?]) h
  · exact .token 't' ['r', 'u', 'e'] rfl (by simp [takeToken, mark?, dropNamed?, dropWord?]) h

/-- A text, however it is spelled. -/
theorem quoted {raw : List Char} (hraw : Between raw) (h : Spells ts rest) :
    Spells (.text raw :: ts) ('"' :: (raw ++ '"' :: rest)) := by
  have htake : takeToken '"' ((raw ++ ['"']) ++ rest) = (.text raw, some rest) := by
    rw [List.append_assoc, List.singleton_append, takeToken, hraw.takeText_eq]
    rfl
  have hspells := Spells.token '"' (raw ++ ['"']) rfl htake h
  rwa [List.append_assoc, List.singleton_append] at hspells

theorem text (s : String) (h : Spells ts rest) :
    Spells (.text (escape s.toList) :: ts) (writeText s ++ rest) := by
  have hspells := h.quoted (quoted_escape s.toList).between
  rwa [writeText, List.cons_append, List.append_assoc, List.singleton_append]

/-- A numeral, however it is spelled. -/
theorem numeral {n : Numeral} {text : List Char} (hn : n.Written text)
    (hends : Numeral.Ends rest) (h : Spells ts rest) :
    Spells (.number n :: ts) (text ++ rest) := by
  have htake := hn.take?_eq hends
  obtain ⟨c, tail, rfl, hc⟩ := hn.exists_eq_cons
  have hspace : isSpace c = false := by
    obtain rfl | hc := hc
    · rfl
    · simp [isSpace, ne_of_isDigit hc]
  have hmark : mark? c = none := by
    obtain rfl | hc := hc
    · rfl
    · simp [mark?, ne_of_isDigit hc]
  have hquote : c ≠ '"' := by
    obtain rfl | hc := hc
    · decide
    · exact ne_of_isDigit hc rfl
  have hword : dropNamed? (c :: (tail ++ rest)) = none := by
    obtain rfl | hc := hc
    · rfl
    · simp [dropNamed?, dropWord?, (ne_of_isDigit hc _).symm]
  refine .token c tail hspace ?_ h
  rw [List.cons_append] at htake
  rw [takeToken, hmark]
  simp only [if_neg hquote, hword, htake]

theorem number (n : Nat) (hends : Numeral.Ends rest) (h : Spells ts rest) :
    Spells (.number (.ofNat n) :: ts) (writeNumber n ++ rest) :=
  h.numeral (Numeral.written_ofNat n) hends

end Spells

/-! ### Trees -/

/-- A value as a text without faults has it: names, numbers and texts as they are spelled. -/
inductive Tree where
  | null
  | bool (value : Bool)
  | number (numeral : Numeral)
  | text (raw : List Char)
  | array (items : List Tree)
  | object (members : List (List Char × Tree))

namespace Tree

open Parse

mutual

/-- The outline of a tree. -/
def outline : Tree → Outline
  | null => .null
  | bool value => .bool value
  | number numeral => .number numeral
  | text raw => .text raw
  | array items => .array (outlineItems items) true
  | object members => .object (outlineMembers members) true

def outlineItems : List Tree → List Outline
  | [] => []
  | item :: rest => outline item :: outlineItems rest

def outlineMembers : List (List Char × Tree) → List (Key × Outline)
  | [] => []
  | (raw, value) :: rest => (⟨raw, true⟩, outline value) :: outlineMembers rest

end

mutual

/-- The tokens of a tree. -/
def tokens : Tree → List Token
  | null => [.null]
  | bool value => [.bool value]
  | number numeral => [.number numeral]
  | text raw => [.text raw]
  | array items => .openBracket :: (itemTokens items ++ [.closeBracket])
  | object members => .openBrace :: (memberTokens members ++ [.closeBrace])

def itemTokens : List Tree → List Token
  | [] => []
  | [item] => tokens item
  | item :: rest => tokens item ++ .comma :: itemTokens rest

def memberTokens : List (List Char × Tree) → List Token
  | [] => []
  | [(raw, value)] => .text raw :: .colon :: tokens value
  | (raw, value) :: rest => .text raw :: .colon :: (tokens value ++ .comma :: memberTokens rest)

end

theorem itemTokens_cons_cons (item next : Tree) (rest : List Tree) :
    itemTokens (item :: next :: rest) = item.tokens ++ .comma :: itemTokens (next :: rest) :=
  rfl

/-- No tree starts where an array ends. -/
theorem exists_tokens_eq_cons (t : Tree) :
    ∃ first rest, t.tokens = first :: rest ∧ first ≠ .closeBracket := by
  cases t <;> exact ⟨_, _, rfl, Token.noConfusion⟩

theorem exists_itemTokens_eq_cons (item : Tree) (rest : List Tree) :
    ∃ first more, itemTokens (item :: rest) = first :: more ∧ first ≠ .closeBracket := by
  obtain ⟨first, more, htokens, hfirst⟩ := item.exists_tokens_eq_cons
  cases rest with
  | nil => exact ⟨first, more, htokens, hfirst⟩
  | cons next rest => exact ⟨first, _, by rw [itemTokens_cons_cons, htokens]; rfl, hfirst⟩

/-- A first item is read as any other. -/
theorem step_itemOrEnd {t : Token} (h : t ≠ .closeBracket) (frames : List Frame) :
    step (.inside .itemOrEnd frames) t = step (.inside .value (.items [] :: frames)) t := by
  cases t <;> first | rfl | exact absurd rfl h

-- By the tree, in whatever containers it stands; the items and members that were read before it
-- are held backwards.

mutual

/-- Its tokens deliver a tree. -/
theorem foldl_tokens : ∀ (t : Tree) (frames : List Frame),
    t.tokens.foldl step (.inside .value frames) = deliver t.outline frames
  | null, _ => rfl
  | bool _, _ => rfl
  | number _, _ => rfl
  | text _, _ => rfl
  | array [], _ => rfl
  | array (item :: rest), frames => by
    have hitems := foldl_itemTokens (item :: rest) [] frames (List.cons_ne_nil _ _)
    obtain ⟨first, more, hfirst, hne⟩ := exists_itemTokens_eq_cons item rest
    rw [hfirst, List.cons_append, List.foldl_cons, ← step_itemOrEnd hne] at hitems
    rw [tokens, hfirst]
    exact hitems
  | object [], _ => rfl
  | object ((raw, value) :: rest), frames => by
    have hmembers := foldl_memberTokens ((raw, value) :: rest) [] ⟨raw, true⟩ frames
      (List.cons_ne_nil _ _)
    cases rest <;> exact hmembers

/-- Items behind others, up to the end of their array. -/
theorem foldl_itemTokens : ∀ (items : List Tree) (held : List Outline) (frames : List Frame),
    items ≠ [] →
      (itemTokens items ++ [Token.closeBracket]).foldl step
          (.inside .value (.items held :: frames)) =
        deliver (.array (held.reverse ++ outlineItems items) true) frames
  | [], _, _, h => absurd rfl h
  | [item], held, frames, _ => by
    rw [itemTokens, List.foldl_append, foldl_tokens item, outlineItems, outlineItems,
      ← List.reverse_cons]
    rfl
  | item :: next :: rest, held, frames, _ => by
    have hrest := foldl_itemTokens (next :: rest) (item.outline :: held) frames
      (List.cons_ne_nil _ _)
    rw [itemTokens_cons_cons, List.append_assoc, List.foldl_append, foldl_tokens item]
    rw [List.reverse_cons, List.append_assoc] at hrest
    exact hrest

/-- Members behind others, up to the end of their object. -/
theorem foldl_memberTokens : ∀ (members : List (List Char × Tree)) (held : List (Key × Outline))
    (key : Key) (frames : List Frame), members ≠ [] →
      (memberTokens members ++ [Token.closeBrace]).foldl step
          (.inside .key (.members held key :: frames)) =
        deliver (.object (held.reverse ++ outlineMembers members) true) frames
  | [], _, _, _, h => absurd rfl h
  | [(raw, value)], held, key, frames, _ => by
    change (value.tokens ++ [Token.closeBrace]).foldl step
      (.inside .value (.members held ⟨raw, true⟩ :: frames)) = _
    rw [List.foldl_append, foldl_tokens value, outlineMembers, outlineMembers, ← List.reverse_cons]
    rfl
  | (raw, value) :: next :: rest, held, key, frames, _ => by
    have hrest := foldl_memberTokens (next :: rest) ((⟨raw, true⟩, value.outline) :: held)
      ⟨raw, true⟩ frames (List.cons_ne_nil _ _)
    change (value.tokens ++ Token.comma :: memberTokens (next :: rest) ++
      [Token.closeBrace]).foldl step (.inside .value (.members held ⟨raw, true⟩ :: frames)) = _
    rw [List.append_assoc, List.foldl_append, foldl_tokens value]
    rw [List.reverse_cons, List.append_assoc] at hrest
    exact hrest

end

end Tree

/-- A text that spells the tokens of a tree is read as the tree. -/
theorem Spells.ofText_eq {t : Tree} {text : List Char} (h : Spells t.tokens text) :
    Document.ofText text = ⟨t.outline, false⟩ := by
  rw [Document.ofText, h.tokens_eq, Parse.State.start, t.foldl_tokens]
  rfl

/-! ### Written values -/

namespace Value

mutual

/-- The tree of a value's texts. -/
def tree : Value → Tree
  | bool value => .bool value
  | number value => .number (.ofNat value)
  | text value => .text (escape value.toList)
  | array items => .array (treeItems items)
  | object members => .object (treeMembers members)

def treeItems : List Value → List Tree
  | [] => []
  | item :: rest => tree item :: treeItems rest

def treeMembers : List (String × Value) → List (List Char × Tree)
  | [] => []
  | (key, value) :: rest => (escape key.toList, tree value) :: treeMembers rest

end

/-- The outline of a value's texts. -/
def outline (v : Value) : Outline :=
  v.tree.outline

/-- A name as it is written. -/
def key (name : String) : Key :=
  ⟨escape name.toList, true⟩

theorem outlineItems_treeItems (items : List Value) :
    Tree.outlineItems (treeItems items) = items.map outline := by
  induction items with
  | nil => rfl
  | cons item rest ih =>
    rw [treeItems, Tree.outlineItems, ih]
    rfl

theorem outlineMembers_treeMembers (members : List (String × Value)) :
    Tree.outlineMembers (treeMembers members) = members.map fun m => (key m.1, m.2.outline) := by
  induction members with
  | nil => rfl
  | cons member rest ih =>
    rw [treeMembers, Tree.outlineMembers, ih]
    rfl

theorem outline_array (items : List Value) :
    (array items).outline = .array (items.map outline) true := by
  rw [outline, tree, Tree.outline, outlineItems_treeItems]

theorem outline_object (members : List (String × Value)) :
    (object members).outline = .object (members.map fun m => (key m.1, m.2.outline)) true := by
  rw [outline, tree, Tree.outline, outlineMembers_treeMembers]

-- A number is taken as far as can be, so what is proved of a value is said in front of a text that
-- ends it: the mark behind it, or the end of the whole.

mutual

theorem spells_compact_append : ∀ (v : Value) {ts : List Token} {rest : List Char},
    Spells ts rest → Numeral.Ends rest → Spells (v.tree.tokens ++ ts) (v.compact ++ rest)
  | bool value, _, _, h, _ => .bool value h
  | number value, _, _, h, hends => .number value hends h
  | text value, _, _, h, _ => .text value h
  | array items, _, rest, h, _ => by
    have hitems := spells_compactItems items (h.mark ']' rfl) (Numeral.ends_cons rfl rest)
    simpa [tree, Tree.tokens, compact] using hitems.mark '[' rfl
  | object members, _, rest, h, _ => by
    have hmembers := spells_compactMembers members (h.mark '}' rfl) (Numeral.ends_cons rfl rest)
    simpa [tree, Tree.tokens, compact] using hmembers.mark '{' rfl

theorem spells_compactItems : ∀ (items : List Value) {ts : List Token} {rest : List Char},
    Spells ts rest → Numeral.Ends rest →
      Spells (Tree.itemTokens (treeItems items) ++ ts) (compactItems items ++ rest)
  | [], _, _, h, _ => h
  | [item], _, _, h, hends => spells_compact_append item h hends
  | item :: next :: rest, _, _, h, hends => by
    have hrest := spells_compactItems (next :: rest) h hends
    have hitem := spells_compact_append item (hrest.mark ',' rfl) (Numeral.ends_cons rfl _)
    simpa [treeItems, Tree.itemTokens, compactItems] using hitem

theorem spells_compactMembers :
    ∀ (members : List (String × Value)) {ts : List Token} {rest : List Char},
      Spells ts rest → Numeral.Ends rest →
        Spells (Tree.memberTokens (treeMembers members) ++ ts) (compactMembers members ++ rest)
  | [], _, _, h, _ => h
  | [(key, value)], _, _, h, hends => by
    have hvalue := spells_compact_append value h hends
    simpa [treeMembers, Tree.memberTokens, compactMembers] using
      (hvalue.mark ':' rfl).text key
  | (key, value) :: next :: rest, _, _, h, hends => by
    have hrest := spells_compactMembers (next :: rest) h hends
    have hvalue := spells_compact_append value (hrest.mark ',' rfl) (Numeral.ends_cons rfl _)
    simpa [treeMembers, Tree.memberTokens, compactMembers] using
      (hvalue.mark ':' rfl).text key

end

theorem isSpace_newLine (depth : Nat) : ∀ c ∈ newLine depth, isSpace c = true := by
  rintro c (_ | ⟨_, hc⟩)
  · rfl
  · rw [List.eq_of_mem_replicate hc]
    rfl

theorem ends_newLine (depth : Nat) (rest : List Char) : Numeral.Ends (newLine depth ++ rest) :=
  Numeral.ends_cons rfl _

mutual

theorem spells_prettyAt_append : ∀ (v : Value) (depth : Nat) {ts : List Token} {rest : List Char},
    Spells ts rest → Numeral.Ends rest →
      Spells (v.tree.tokens ++ ts) (v.prettyAt depth ++ rest)
  | bool value, _, _, _, h, _ => .bool value h
  | number value, _, _, _, h, hends => .number value hends h
  | text value, _, _, _, h, _ => .text value h
  | array [], _, _, _, h, _ => (h.mark ']' rfl).mark '[' rfl
  | array (item :: more), depth, _, rest, h, _ => by
    have hend := (h.mark ']' rfl).blank (isSpace_newLine depth)
    have hitems := spells_prettyItems (item :: more) (depth + 1) hend (ends_newLine depth _)
    simpa [tree, Tree.tokens, prettyAt] using hitems.mark '[' rfl
  | object [], _, _, _, h, _ => (h.mark '}' rfl).mark '{' rfl
  | object (member :: more), depth, _, rest, h, _ => by
    have hend := (h.mark '}' rfl).blank (isSpace_newLine depth)
    have hmembers := spells_prettyMembers (member :: more) (depth + 1) hend (ends_newLine depth _)
    simpa [tree, Tree.tokens, prettyAt] using hmembers.mark '{' rfl

theorem spells_prettyItems :
    ∀ (items : List Value) (depth : Nat) {ts : List Token} {rest : List Char},
      Spells ts rest → Numeral.Ends rest →
        Spells (Tree.itemTokens (treeItems items) ++ ts) (prettyItems depth items ++ rest)
  | [], _, _, _, h, _ => h
  | [item], depth, _, _, h, hends => by
    have hitem := spells_prettyAt_append item depth h hends
    simpa [treeItems, Tree.itemTokens, prettyItems] using hitem.blank (isSpace_newLine depth)
  | item :: next :: rest, depth, _, _, h, hends => by
    have hrest := spells_prettyItems (next :: rest) depth h hends
    have hitem := spells_prettyAt_append item depth (hrest.mark ',' rfl) (Numeral.ends_cons rfl _)
    simpa [treeItems, Tree.itemTokens, prettyItems] using hitem.blank (isSpace_newLine depth)

theorem spells_prettyMembers :
    ∀ (members : List (String × Value)) (depth : Nat) {ts : List Token} {rest : List Char},
      Spells ts rest → Numeral.Ends rest →
        Spells (Tree.memberTokens (treeMembers members) ++ ts) (prettyMembers depth members ++ rest)
  | [], _, _, _, h, _ => h
  | [(key, value)], depth, _, _, h, hends => by
    have hvalue := (spells_prettyAt_append value depth h hends).space ' ' rfl
    simpa [treeMembers, Tree.memberTokens, prettyMembers] using
      ((hvalue.mark ':' rfl).text key).blank (isSpace_newLine depth)
  | (key, value) :: next :: rest, depth, _, _, h, hends => by
    have hrest := spells_prettyMembers (next :: rest) depth h hends
    have hvalue := (spells_prettyAt_append value depth (hrest.mark ',' rfl)
      (Numeral.ends_cons rfl _)).space ' ' rfl
    simpa [treeMembers, Tree.memberTokens, prettyMembers] using
      ((hvalue.mark ':' rfl).text key).blank (isSpace_newLine depth)

end

theorem spells_compact (v : Value) : Spells v.tree.tokens v.compact := by
  have hspells := v.spells_compact_append .nil Numeral.ends_nil
  rwa [List.append_nil, List.append_nil] at hspells

theorem spells_pretty (v : Value) : Spells v.tree.tokens v.pretty := by
  have hspells := v.spells_prettyAt_append 0 .nil Numeral.ends_nil
  rwa [List.append_nil, List.append_nil] at hspells

end Value

end Lifeline.Json
