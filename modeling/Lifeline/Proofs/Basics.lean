import Mathlib.Data.List.Forall2
import Mathlib.Data.List.Induction
import Mathlib.Data.List.Nodup

/-! Lists, results that may be errors, and texts in bytes.

`eraseDups` keeps what is distinct in a list in the order of first occurrence. A sequence of
fallible parts gives a result only if every part does. The bytes of a text are no other text's. -/
namespace Lifeline

/-- What is distinct in a list, in the order of first occurrence, after one more element. -/
theorem eraseDups_concat {α : Type} [DecidableEq α] (seen : List α) (a : α) :
    (seen ++ [a]).eraseDups =
      if a ∈ seen.eraseDups then seen.eraseDups else seen.eraseDups ++ [a] := by
  rw [List.eraseDups_append]
  by_cases h : a ∈ seen <;> simp [List.removeAll, h, List.eraseDups_cons]

theorem nodup_eraseDups {α : Type} [DecidableEq α] (xs : List α) : xs.eraseDups.Nodup := by
  induction xs using List.reverseRecOn with
  | nil => exact List.nodup_nil
  | append_singleton before a ih =>
    rw [eraseDups_concat]
    split
    · exact ih
    · rename_i hnew
      exact List.nodup_append.mpr ⟨ih, List.nodup_singleton a, fun b hb c hc => by
        rintro rfl
        exact hnew (List.mem_singleton.mp hc ▸ hb)⟩

theorem perm_eraseDups {α : Type} [DecidableEq α] {xs ys : List α} (h : xs.Perm ys) :
    xs.eraseDups.Perm ys.eraseDups :=
  (List.perm_ext_iff_of_nodup (nodup_eraseDups xs) (nodup_eraseDups ys)).mpr fun a => by
    rw [List.mem_eraseDups, List.mem_eraseDups, h.mem_iff]

theorem foldl_of_fixed {α β : Type} {f : β → α → β} {b : β} {l : List α}
    (h : ∀ a ∈ l, f b a = b) : l.foldl f b = b := by
  induction l with
  | nil => rfl
  | cons a l ih =>
    obtain ⟨ha, hl⟩ := List.forall_mem_cons.mp h
    rw [List.foldl_cons, ha, ih hl]

theorem bind_eq_ok {ε α β : Type} {x : Except ε α} {f : α → Except ε β} {b : β} :
    x >>= f = .ok b ↔ ∃ a, x = .ok a ∧ f a = .ok b := by
  cases x with
  | error e => simp [bind, Except.bind]
  | ok a => simp [bind, Except.bind]

theorem map_eq_ok {ε α β : Type} {x : Except ε α} {f : α → β} {b : β} :
    x.map f = .ok b ↔ ∃ a, x = .ok a ∧ f a = b := by
  cases x <;> simp [Except.map]

theorem mapError_eq_ok {ε ε' α : Type} {x : Except ε α} {f : ε → ε'} {a : α} :
    x.mapError f = .ok a ↔ x = .ok a := by
  cases x <;> simp [Except.mapError]

/-- What every step keeps a run keeps, if it gets through. -/
theorem foldlM_keeps {ε α β : Type} {f : β → α → Except ε β} {P : β → Prop} {l : List α} {b b' : β}
    (hkeep : ∀ a ∈ l, ∀ before after, f before a = .ok after → P before → P after)
    (h : l.foldlM f b = .ok b') (hb : P b) : P b' := by
  induction l generalizing b with
  | nil => exact Except.ok.inj h ▸ hb
  | cons a l ih =>
    obtain ⟨ha, hl⟩ := List.forall_mem_cons.mp hkeep
    obtain ⟨next, hnext, hrest⟩ := bind_eq_ok.mp h
    exact ih hl hrest (ha b next hnext hb)

/-- A run that gets through does so at each step. -/
theorem exists_of_foldlM_eq_ok {ε α β : Type} {f : β → α → Except ε β} {l : List α} {b b' : β}
    (h : l.foldlM f b = .ok b') {a : α} (ha : a ∈ l) : ∃ before after, f before a = .ok after := by
  induction l generalizing b with
  | nil => exact absurd ha List.not_mem_nil
  | cons first l ih =>
    obtain ⟨next, hnext, hrest⟩ := bind_eq_ok.mp h
    obtain rfl | hmem := List.mem_cons.mp ha
    · exact ⟨b, next, hnext⟩
    · exact ih hrest hmem

theorem mapM_eq_ok_of_forall₂ {ε α β : Type} {f : α → Except ε β} {l : List α} {l' : List β}
    (h : List.Forall₂ (fun b a => f a = .ok b) l' l) : l.mapM f = .ok l' := by
  induction h with
  | nil => rfl
  | cons hfirst _ ih =>
    rw [List.mapM_cons, hfirst, ih]
    rfl

theorem exists_of_mapM_eq_ok {ε α β : Type} {f : α → Except ε β} {l : List α} {l' : List β}
    (h : l.mapM f = .ok l') {a : α} (ha : a ∈ l) : ∃ b, f a = .ok b := by
  induction l generalizing l' with
  | nil => exact absurd ha List.not_mem_nil
  | cons first l ih =>
    rw [List.mapM_cons] at h
    obtain ⟨b, hb, h⟩ := bind_eq_ok.mp h
    obtain ⟨rest, hrest, -⟩ := bind_eq_ok.mp h
    obtain rfl | hmem := List.mem_cons.mp ha
    · exact ⟨b, hb⟩
    · exact ih hrest hmem

/-- The bytes of a text are the text. -/
theorem fromUTF8?_toUTF8 (s : String) :
    String.fromUTF8? ⟨s.toUTF8.data.toList.toArray⟩ = some s := by
  have hvalid : s.toUTF8.IsValidUTF8 := s.isValidUTF8
  rw [Array.toArray_toList, String.fromUTF8?]
  exact dif_pos hvalid

end Lifeline
