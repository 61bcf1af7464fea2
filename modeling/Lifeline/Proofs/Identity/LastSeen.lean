import Lifeline.Proofs.Identity.View

/-! When a buffer was last seen.

An observation that does not free its buffer renews the record under the head, whichever way the
record got there (`Store.lookup_observed_head`). The exception is a store that is full and has no
record under the head: it stays as it is, and nothing in it is renewed
(`Store.observed_of_refused`).

What holds of every record of a store still does after an observation if it holds of a new record
and survives a renewal (`Store.Each.run_observe`). -/
namespace Lifeline

namespace Record

theorem toNat_age (r : Record) (now : Nanos) :
    (r.age now).toNat = now.toNat - r.lastSeen.toNat := by
  unfold age
  split
  · rename_i h
    exact UInt64.toNat_sub_of_le _ _ h
  · rename_i h
    have := UInt64.lt_iff_toNat_lt.mp (UInt64.not_le.mp h)
    rw [UInt64.toNat_zero]
    omega

end Record

namespace Store

variable {s : Store} {behavior : Behavior} {o : Observation}

/-! ### The record under the head -/

theorem touch_of_absent {key : Address} (h : s.lookup key = none) (now : Nanos) :
    (s.touch key now).2 = s := by
  refine BoundedMap.ext_get? rfl fun k => ?_
  show (s.touch key now).2.lookup k = s.lookup k
  rw [lookup_touch]
  split
  · rename_i heq
    rw [← heq, h]
    rfl
  · rfl

/-- Where the head finds no record and no room, nothing happens. -/
theorem observed_of_refused (hfrees : behavior.frees = false) (hhead : s.lookup o.head = none)
    (hfull : ¬s.HasRoom) : s.observed behavior o = s := by
  have hrefused (key : Address) (r : Record) : s.insertIfAbsent key r = (false, s) :=
    insertIfAbsent_refused fun h => hfull h.2
  have hrecognized : s.recognized behavior o = s := by
    unfold recognized
    rw [hhead, hrefused]
    cases s.lookup o.skb <;> simp [hfull]
  rw [observed, hrecognized, forgotten, if_neg (by simp [hfrees]), doubled, touch_of_absent hhead,
    hrefused]
  split <;> rfl

/-- The record under the head, before it is renewed. -/
theorem lookup_recognized_head (hfrees : behavior.frees = false)
    (h : s.lookup o.head ≠ none ∨ s.HasRoom) :
    (s.recognized behavior o).lookup o.head = some (s.recordOf o) := by
  cases hhead : s.lookup o.head with
  | some r =>
    rw [recognized_of_hit behavior hhead, hhead]
    simp [recordOf, found, hhead]
  | none =>
    have hroom : s.HasRoom := h.resolve_left (absurd hhead)
    cases hskb : s.lookup o.skb with
    | some r =>
      have hne : o.skb ≠ o.head := by
        intro heq
        rw [heq, hhead] at hskb
        exact absurd hskb (by simp)
      rw [recognized_of_moved behavior hhead hskb, if_pos hroom, lookup_delete, if_neg hne,
        lookup_insertIfAbsent, if_pos ⟨⟨hhead, hroom⟩, rfl⟩]
      simp [recordOf, found, hhead, hskb]
    | none =>
      rw [recognized_of_new behavior hhead hskb, if_neg (by simp [hfrees]),
        lookup_insertIfAbsent, if_pos ⟨⟨hhead, hroom⟩, rfl⟩]
      simp [recordOf, found, hhead, hskb]

/-- A buffer that goes on is renewed under its head, if the head had a record or could take
one. -/
theorem lookup_observed_head (hfrees : behavior.frees = false)
    (h : s.lookup o.head ≠ none ∨ s.HasRoom) :
    (s.observed behavior o).lookup o.head = some ((s.recordOf o).renewed o.timestamp) := by
  have htouched : ((s.recognized behavior o).touch o.head o.timestamp).2.lookup o.head =
      some ((s.recordOf o).renewed o.timestamp) := by
    rw [lookup_touch, if_pos rfl, lookup_recognized_head hfrees h]
    rfl
  rw [observed, forgotten, if_neg (by simp [hfrees]), doubled]
  split
  · rw [lookup_insertIfAbsent, if_neg, htouched]
    rintro ⟨⟨hfree, -⟩, heq⟩
    rw [heq, htouched] at hfree
    exact absurd hfree (by simp)
  · exact htouched

namespace Each

variable {P : Record → Prop}

theorem recordOf (h : s.Each P) (hnew : P (Record.start o.head o.timestamp)) :
    P (s.recordOf o) := by
  unfold Store.recordOf found
  cases hhead : s.lookup o.head with
  | some r => exact h o.head r hhead
  | none =>
    cases hskb : s.lookup o.skb with
    | some r => exact h o.skb r hskb
    | none => exact hnew

theorem recognized (h : s.Each P) (behavior : Behavior)
    (hnew : P (Record.start o.head o.timestamp)) : (s.recognized behavior o).Each P := by
  unfold Store.recognized
  split
  · exact h
  · rename_i r _ hskb
    split
    · exact (h.insertIfAbsent o.head (h o.skb r hskb)).delete o.skb
    · exact h
  · split
    · exact h
    · exact h.insertIfAbsent o.head hnew

theorem observed (h : s.Each P) (behavior : Behavior) (hnew : P (Record.start o.head o.timestamp))
    (hrenew : ∀ r, P r → P (r.renewed o.timestamp)) : (s.observed behavior o).Each P := by
  have hdoubled : ((s.recognized behavior o).doubled behavior o (s.recordOf o)).Each P := by
    have htouched := (h.recognized behavior hnew).touch o.head hrenew
    unfold doubled
    split
    · exact htouched.insertIfAbsent o.skb (hrenew _ (h.recordOf hnew))
    · exact htouched
  unfold Store.observed forgotten
  split
  · split
    · exact (hdoubled.delete o.head).delete o.skb
    · exact hdoubled.delete o.head
  · exact hdoubled

/-- What holds of new records, and of records that are renewed, is kept by an observation. -/
theorem run_observe (h : s.Each P) (behavior : Behavior)
    (hnew : P (Record.start o.head o.timestamp)) (hrenew : ∀ r, P r → P (r.renewed o.timestamp)) :
    ((observe behavior o).run s).2.Each P := by
  by_cases hhead : o.head = 0
  · rw [observe_run_of_no_head s behavior o hhead]
    exact h
  · rw [observe_run s behavior o hhead]
    exact h.observed behavior hnew hrenew

end Each

end Store

end Lifeline
