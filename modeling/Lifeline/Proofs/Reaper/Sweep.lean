import Lifeline.Proofs.Identity.LastSeen
import Lifeline.Reaper
import Mathlib.Data.List.TakeWhile

/-! What a sweep does to the plain store.

A sweep removes the stale keys of its snapshot in order, up to the first removal that fails
(`Reaper.sweep_ofStore`). So it spares every record that is young enough, adds none, and leaves
none that is too old unless it fails. -/
namespace Lifeline

namespace Reaper

/-! ### Removals -/

theorem lookup_foldl_delete (keys : List Address) (s : Store) (k : Address) :
    (keys.foldl Store.delete s).lookup k = if k ∈ keys then none else s.lookup k := by
  induction keys generalizing s with
  | nil => rfl
  | cons key rest ih =>
    rw [List.foldl_cons, ih, Store.lookup_delete]
    by_cases hkey : key = k
    · simp [hkey]
    · simp [hkey, Ne.symm hkey]

/-- Keys are removed up to the first that cannot be. -/
theorem removeAll_ofStore (failing : Failing) (keys : List Address) (s : Store) :
    removeAll (ofStore failing) keys s =
      (if keys.any failing.removal then .error .remove else .ok (),
        (keys.takeWhile fun key => !failing.removal key).foldl Store.delete s) := by
  induction keys generalizing s with
  | nil => rfl
  | cons key rest ih =>
    cases hfails : failing.removal key with
    | true => simp [removeAll, ofStore, hfails]
    | false =>
      have hstep : removeAll (ofStore failing) (key :: rest) s =
          removeAll (ofStore failing) rest (s.delete key) := by
        simp [removeAll, ofStore, hfails]
      rw [hstep, ih, List.any_cons, hfails, Bool.false_or,
        List.takeWhile_cons_of_pos (by simp [hfails]), List.foldl_cons]

theorem mem_toList {s : Store} {key : Address} {r : Record} :
    (key, r) ∈ s.toList ↔ s.lookup key = some r :=
  Std.ExtTreeMap.mem_toList_iff_getElem?_eq_some

theorem mem_stale_iff_age {now maxAge : Nanos} {entries : List (Address × Record)}
    {key : Address} :
    key ∈ stale now maxAge entries ↔ ∃ r, (key, r) ∈ entries ∧ maxAge < r.age now := by
  constructor
  · intro h
    obtain ⟨⟨k, r⟩, hmem, rfl⟩ := List.mem_map.mp h
    obtain ⟨hlist, hold⟩ := List.mem_filter.mp hmem
    exact ⟨r, hlist, of_decide_eq_true hold⟩
  · rintro ⟨r, hr, hold⟩
    refine List.mem_map.mpr ⟨(key, r), ?_, rfl⟩
    exact List.mem_filter.mpr ⟨hr, decide_eq_true hold⟩

theorem mem_stale_iff {s : Store} {now maxAge : Nanos} {key : Address} :
    key ∈ stale now maxAge s.toList ↔ ∃ r, s.lookup key = some r ∧ maxAge < r.age now := by
  simp only [mem_stale_iff_age, mem_toList]

end Reaper

open Reaper

/-- A sweep of the plain store, with the failures that it meets. -/
structure Sweep where
  now : Nanos
  maxAge : Nanos
  failing : Failing

namespace Sweep

def result (w : Sweep) (s : Store) : Except SweepError Nat × Store :=
  sweep (ofStore w.failing) w.now w.maxAge s

/-- The store after the sweep. -/
def apply (w : Sweep) (s : Store) : Store :=
  (w.result s).2

/-- Young enough to stay. -/
def Spares (w : Sweep) (r : Record) : Prop :=
  r.age w.now ≤ w.maxAge

instance (w : Sweep) (r : Record) : Decidable (w.Spares r) :=
  inferInstanceAs (Decidable (_ ≤ _))

theorem spares_iff {w : Sweep} {r : Record} :
    w.Spares r ↔ w.now.toNat ≤ r.lastSeen.toNat + w.maxAge.toNat := by
  rw [Spares, UInt64.le_iff_toNat_le, Record.toNat_age]
  omega

/-- The keys that the sweep removes: the stale ones up to the first that cannot be removed. -/
def removed (w : Sweep) (s : Store) : List Address :=
  if w.failing.snapshot then []
  else (stale w.now w.maxAge s.toList).takeWhile fun key => !w.failing.removal key

theorem result_eq (w : Sweep) (s : Store) :
    w.result s =
      (if w.failing.snapshot then .error .entries
        else if (stale w.now w.maxAge s.toList).any w.failing.removal then .error .remove
        else .ok (stale w.now w.maxAge s.toList).length,
        (w.removed s).foldl Store.delete s) := by
  unfold result sweep removed
  cases hsnapshot : w.failing.snapshot with
  | true =>
    have hentries : (ofStore w.failing).entries s = (.error .entries, s) := by
      simp [ofStore, hsnapshot]
    rw [hentries]
    rfl
  | false =>
    have hentries : (ofStore w.failing).entries s = (.ok s.toList, s) := by
      simp [ofStore, hsnapshot]
    rw [hentries]
    simp only [removeAll_ofStore, Bool.false_eq_true, if_false]
    cases (stale w.now w.maxAge s.toList).any w.failing.removal <;> rfl

theorem removed_subset (w : Sweep) (s : Store) : w.removed s ⊆ stale w.now w.maxAge s.toList := by
  unfold removed
  split
  · exact List.nil_subset _
  · exact List.takeWhile_subset _

/-- A sweep that does not fail removes every stale key. -/
theorem removed_of_ok {w : Sweep} {s : Store} {n : Nat} (h : (w.result s).1 = .ok n) :
    w.removed s = stale w.now w.maxAge s.toList := by
  simp only [result_eq] at h
  split at h
  · cases h
  · rename_i hsnapshot
    split at h
    · cases h
    · rename_i hany
      have hremovable : ∀ key ∈ stale w.now w.maxAge s.toList, (!w.failing.removal key) = true := by
        intro key hkey
        have := List.any_eq_false.mp (Bool.eq_false_iff.mpr hany) key hkey
        simpa using this
      rw [removed, if_neg hsnapshot, List.takeWhile_eq_self_iff.mpr hremovable]

theorem lookup_apply (w : Sweep) (s : Store) (k : Address) :
    (w.apply s).lookup k = if k ∈ w.removed s then none else s.lookup k := by
  rw [apply, result_eq, lookup_foldl_delete]

/-! ### Who stays -/

/-- A sweep adds nothing and changes nothing. -/
theorem lookup_of_apply {w : Sweep} {s : Store} {k : Address} {r : Record}
    (h : (w.apply s).lookup k = some r) : s.lookup k = some r := by
  rw [lookup_apply] at h
  split at h
  · cases h
  · exact h

theorem lookup_apply_of_spares {w : Sweep} {s : Store} {k : Address} {r : Record}
    (h : s.lookup k = some r) (hyoung : w.Spares r) : (w.apply s).lookup k = some r := by
  rw [lookup_apply, if_neg, h]
  intro hremoved
  obtain ⟨r', hr', hold⟩ := mem_stale_iff.mp (w.removed_subset s hremoved)
  obtain rfl : r = r' := Option.some.inj (h.symm.trans hr')
  exact absurd hyoung (UInt64.not_le.mpr hold)

theorem spares_of_ok {w : Sweep} {s : Store} {n : Nat} (hok : (w.result s).1 = .ok n) {k : Address}
    {r : Record} (h : (w.apply s).lookup k = some r) : w.Spares r := by
  have hbefore := lookup_of_apply h
  rw [lookup_apply, removed_of_ok hok] at h
  by_contra hold
  have hstale := mem_stale_iff.mpr ⟨r, hbefore, UInt64.not_le.mp hold⟩
  rw [if_pos hstale] at h
  cases h

/-- A sweep that meets no failure does not fail. -/
theorem ok_of_never {w : Sweep} (h : w.failing = .never) (s : Store) :
    ∃ n, (w.result s).1 = .ok n := by
  have hany : (stale w.now w.maxAge s.toList).any Failing.never.removal = false :=
    List.any_eq_false.mpr fun _ _ => Bool.false_ne_true
  refine ⟨(stale w.now w.maxAge s.toList).length, ?_⟩
  rw [result_eq, h, hany, if_neg (show ¬Failing.never.snapshot = true from Bool.false_ne_true),
    if_neg Bool.false_ne_true]

end Sweep

theorem Store.Each.sweep {P : Record → Prop} {s : Store} (h : s.Each P) (w : Sweep) :
    (w.apply s).Each P :=
  fun key r hr => h key r (Sweep.lookup_of_apply hr)

end Lifeline
