import Lifeline.Proofs.Identity.Sequence
import Lifeline.Proofs.Reaper.Sweep

/-! Whether a buffer that is still observed outlives the sweeps.

A firing renews the record under its head, so that no sweep with a maximal age that reaches back
to the firing removes it. A firing that is refused a place under its head renews nothing: its
buffer's record stays under the buffer's address as old as it was, and a sweep may take it although
the buffer has just been seen.

`seen_buffer_survives` tells both cases, and `refusedMove_reaped` has a run of the second. -/
namespace Lifeline

namespace Sweep

/-- Sweeps one after another. -/
def applyAll (sweeps : List Sweep) (s : Store) : Store :=
  sweeps.foldl (fun s w => w.apply s) s

variable {sweeps : List Sweep} {s : Store} {key : Address} {r : Record}

theorem lookup_of_applyAll (h : (applyAll sweeps s).lookup key = some r) :
    s.lookup key = some r := by
  induction sweeps generalizing s with
  | nil => exact h
  | cons w rest ih => exact lookup_of_apply (ih h)

theorem lookup_applyAll_of_absent (sweeps : List Sweep) (h : s.lookup key = none) :
    (applyAll sweeps s).lookup key = none := by
  by_contra hne
  obtain ⟨r, hr⟩ := Option.ne_none_iff_exists'.mp hne
  rw [lookup_of_applyAll hr] at h
  cases h

/-- A record stays if every sweep spares it. -/
theorem lookup_applyAll_of_spares (h : s.lookup key = some r) (hyoung : ∀ w ∈ sweeps, w.Spares r) :
    (applyAll sweeps s).lookup key = some r := by
  induction sweeps generalizing s with
  | nil => exact h
  | cons w rest ih =>
    obtain ⟨hnow, hlater⟩ := List.forall_mem_cons.mp hyoung
    exact ih (lookup_apply_of_spares h hnow) hlater

/-- It goes if a sweep that meets no failure does not spare it. -/
theorem lookup_applyAll_of_not_spares (h : s.lookup key = some r) {w : Sweep} (hw : w ∈ sweeps)
    (hnever : w.failing = .never) (hold : ¬w.Spares r) : (applyAll sweeps s).lookup key = none := by
  induction sweeps generalizing s with
  | nil => cases hw
  | cons first rest ih =>
    show (applyAll rest (first.apply s)).lookup key = none
    cases hafter : (first.apply s).lookup key with
    | none => exact lookup_applyAll_of_absent rest hafter
    | some r' =>
      obtain rfl : r = r' := Option.some.inj (h.symm.trans (lookup_of_apply hafter))
      rcases List.mem_cons.mp hw with rfl | hw
      · obtain ⟨n, hok⟩ := ok_of_never hnever s
        exact absurd (spares_of_ok hok hafter) hold
      · exact ih hafter hw

end Sweep

namespace Firing

variable {s : Store} {f : Firing}

/-- A record under the head decides. -/
theorem identify_of_head {r : Record} (hhead : f.head ≠ 0) (h : s.lookup f.head = some r) :
    (f.identify.run s).1 = some r.identity := by
  rw [f.identify_run s hhead, Store.recordOf, Store.found, h]
  rfl

/-- Without one, the record under the buffer's address does. -/
theorem identify_of_skb {r : Record} (hhead : f.head ≠ 0) (hfree : s.lookup f.head = none)
    (h : s.lookup f.skb = some r) : (f.identify.run s).1 = some r.identity := by
  rw [f.identify_run s hhead, Store.recordOf, Store.found, hfree, h]
  rfl

theorem identify_of_none (hhead : f.head ≠ 0) (hfree : s.lookup f.head = none)
    (h : s.lookup f.skb = none) : (f.identify.run s).1 = some f.origin := by
  rw [f.identify_run s hhead, Store.recordOf, Store.found, hfree, h]
  rfl

end Firing

open Sweep

variable {s : Store} {f g : Firing} {sweeps : List Sweep}

/-- A firing that found its head in the store, or room for it, is remembered under its head by
all sweeps that reach back to it. -/
theorem identify_of_renewed (hhead : f.head ≠ 0) (hfrees : f.frees = false)
    (hheld : s.lookup f.head ≠ none ∨ s.HasRoom)
    (hrecent : ∀ w ∈ sweeps, w.now.toNat ≤ f.timestamp.toNat + w.maxAge.toNat)
    (hsame : g.head = f.head) :
    (g.identify.run (applyAll sweeps (f.program.run s).2)).1 =
      some (s.recordOf f.observation).identity := by
  have hrenewed : (f.program.run s).2.lookup f.head =
      some ((s.recordOf f.observation).renewed f.timestamp) := by
    rw [f.store_run s hhead]
    exact Store.lookup_observed_head hfrees hheld
  have hkept := lookup_applyAll_of_spares hrenewed fun w hw => spares_iff.mpr (hrecent w hw)
  rw [← hsame] at hkept
  rw [Firing.identify_of_head (hsame ▸ hhead) hkept, Record.identity_renewed]

/-- Where the head is not in the store, sweeps decide about the record under the buffer's
address. -/
theorem identify_of_swept (sweeps : List Sweep) {r : Record} (hhead : g.head ≠ 0)
    (hfree : s.lookup g.head = none) (hr : s.lookup g.skb = some r) :
    ((∀ w ∈ sweeps, w.Spares r) →
        (g.identify.run (applyAll sweeps s)).1 = some r.identity) ∧
      ((∃ w ∈ sweeps, w.failing = .never ∧ ¬w.Spares r) →
        (g.identify.run (applyAll sweeps s)).1 = some g.origin) := by
  have hstill := lookup_applyAll_of_absent sweeps hfree
  refine ⟨fun hyoung => ?_, fun ⟨w, hw, hnever, hold⟩ => ?_⟩
  · exact Firing.identify_of_skb hhead hstill (lookup_applyAll_of_spares hr hyoung)
  · exact Firing.identify_of_none hhead hstill
      (lookup_applyAll_of_not_spares hr hw hnever hold)

/-- **A buffer whose firing found its head in the store, or room for it, keeps its identity**
through all sweeps that reach back to that firing. Where the store was full and the head not in
it, the firing changes nothing: then the buffer's record is under its own address, and it keeps
its identity if every sweep spares that record, as old as it was before, and is taken for a new
buffer if one does not. -/
theorem seen_buffer_survives (s : Store) (f g : Firing) (sweeps : List Sweep) (i : Identity)
    (hhead : f.head ≠ 0) (hfrees : f.frees = false)
    (hemitted : (f.identify.run s).1 = some i)
    (hstored : (f.program.run s).2.identityAt f.head = some i ∨
      (f.program.run s).2.identityAt f.skb = some i)
    (hrecent : ∀ w ∈ sweeps, w.now.toNat ≤ f.timestamp.toNat + w.maxAge.toNat)
    (hskb : g.skb = f.skb) (hsame : g.head = f.head) :
    let swept := applyAll sweeps (f.program.run s).2
    (s.lookup f.head ≠ none ∨ s.HasRoom → (g.program.run swept).1 = g.report (some i)) ∧
      (s.lookup f.head = none ∧ ¬s.HasRoom →
        (f.program.run s).2 = s ∧
        ∃ r, s.lookup f.skb = some r ∧ r.identity = i ∧
          ((∀ w ∈ sweeps, w.Spares r) → (g.program.run swept).1 = g.report (some i)) ∧
          ((∃ w ∈ sweeps, w.failing = .never ∧ ¬w.Spares r) →
            (g.program.run swept).1 = g.report (some g.origin))) := by
  intro swept
  have hghead : g.head ≠ 0 := hsame ▸ hhead
  refine ⟨fun hheld => ?_, fun ⟨hfree, hfull⟩ => ?_⟩
  · have hi : (s.recordOf f.observation).identity = i := by
      rw [f.identify_run s hhead] at hemitted
      exact Option.some.inj hemitted
    have hfound := identify_of_renewed hhead hfrees hheld hrecent hsame
    rw [hi] at hfound
    exact Firing.program_run_of_identify hfound
  · -- the head finds neither a record nor room, so nothing is renewed
    have hsamestore : (f.program.run s).2 = s := by
      rw [f.store_run s hhead]
      exact Store.observed_of_refused hfrees hfree hfull
    rw [hsamestore] at hstored
    have hhere : s.identityAt f.skb = some i := by
      refine hstored.resolve_left ?_
      rw [Store.identityAt_eq_none_iff.mpr hfree]
      simp
    obtain ⟨r, hr, rfl⟩ := Store.lookup_of_identityAt hhere
    have hswept : swept = applyAll sweeps s := congrArg (applyAll sweeps) hsamestore
    obtain ⟨hspared, htaken⟩ := identify_of_swept sweeps hghead (hsame ▸ hfree) (hskb ▸ hr)
    rw [← hswept] at hspared htaken
    exact ⟨hsamestore, r, hr, rfl, fun hyoung => Firing.program_run_of_identify (hspared hyoung),
      fun hold => Firing.program_run_of_identify (htaken hold)⟩

/-- The first firing on a buffer: it invalidates the head, which leaves a record under the head
and one under the buffer's address. -/
def invalidating : Firing :=
  .bare (.ofFlags false true) 100 0xffff888000001000 0xffff888011110000

/-- A firing on the same buffer at its next head. -/
def atNextHead (now : Nanos) : Firing :=
  .bare .plain now 0xffff888000001000 0xffff888022220000

/-- A sweep that takes what was not seen for 50 nanoseconds. -/
def sweepAt (now : Nanos) : Sweep :=
  ⟨now, 50, .never⟩

/-- With room, the firing at the next head renews the record, and the sweep takes only the one
that was left behind. -/
theorem moved_survives :
    let s := (invalidating.program.run (.empty 3)).2
    let after := ((atNextHead 200).program.run s).2
    (atNextHead 200).head ≠ 0 ∧ (atNextHead 200).frees = false ∧
      ((atNextHead 200).identify.run s).1 = some invalidating.origin ∧
      after.identityAt (atNextHead 200).head = some invalidating.origin ∧
      (sweepAt 250).now.toNat ≤ (atNextHead 200).timestamp.toNat + (sweepAt 250).maxAge.toNat ∧
      (atNextHead 260).skb = (atNextHead 200).skb ∧ (atNextHead 260).head = (atNextHead 200).head ∧
      s.HasRoom ∧
      ((atNextHead 260).program.run (applyAll [sweepAt 250] after)).1 =
        (atNextHead 260).report (some invalidating.origin) := by
  intro s after
  have hemitted : ((atNextHead 200).identify.run s).1 = some invalidating.origin := by
    decide +kernel
  have hstored : after.identityAt (atNextHead 200).head = some invalidating.origin := by
    decide +kernel
  have hroom : s.HasRoom := by
    decide +kernel
  have hsurvives := (seen_buffer_survives s (atNextHead 200) (atNextHead 260) [sweepAt 250]
    invalidating.origin (by decide) rfl hemitted (.inl hstored) (by decide) rfl rfl).1 (.inr hroom)
  exact ⟨by decide, rfl, hemitted, hstored, by decide, rfl, rfl, hroom, hsurvives⟩

/-- In a full store the buffer is seen at its next head, and a sweep that reaches back to that
firing takes its record all the same: at the same head it is then taken for a new buffer. -/
theorem refusedMove_reaped :
    let s := (invalidating.program.run (.empty 2)).2
    let after := ((atNextHead 200).program.run s).2
    (atNextHead 200).head ≠ 0 ∧ (atNextHead 200).frees = false ∧
      ((atNextHead 200).identify.run s).1 = some invalidating.origin ∧
      after.identityAt (atNextHead 200).skb = some invalidating.origin ∧
      (sweepAt 210).now.toNat ≤ (atNextHead 200).timestamp.toNat + (sweepAt 210).maxAge.toNat ∧
      (atNextHead 220).skb = (atNextHead 200).skb ∧ (atNextHead 220).head = (atNextHead 200).head ∧
      ((atNextHead 220).identify.run (applyAll [sweepAt 210] after)).1 =
        some (atNextHead 220).origin ∧
      (atNextHead 220).origin ≠ invalidating.origin := by
  decide +kernel

end Lifeline
