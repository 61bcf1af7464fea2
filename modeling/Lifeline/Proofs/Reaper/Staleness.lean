import Lifeline.Proofs.Reaper.Sweep

/-! How old the records of a swept store can get.

A reaper ticks when it is spawned and then once every period; the first tick removes nothing, every
other is a sweep. Between the ticks buffers are observed. Time passes up to the next tick that is
due and no further, and what happens takes none (`Rounds.step?`).

What carries the bound is that no record is older at the latest tick than the maximal age
(`Rounds.Young`): a sweep takes those that are, and an observation enters no record that was last
seen before another of the store. `staleness_bounded` says what follows for the records at any
time. -/
namespace Lifeline.Reaper

/-- The rounds of a reaper. -/
structure Rounds where
  /-- When the reaper is spawned, and ticks for the first time. -/
  spawned : Nanos
  /-- Nanoseconds between two ticks. -/
  period : Nat
  maxAge : Nanos

/-- A store and its reaper. -/
structure Stage where
  now : Nanos
  /-- Ticks so far. -/
  ticks : Nat
  /-- Records that the reaper has counted as removed. -/
  reaped : Nat
  store : Store

/-- What happens to them. -/
inductive Deed where
  | wait (later : Nanos)
  | observe (behavior : Behavior) (o : Observation)
  | tick (failing : Failing)

namespace Rounds

/-- When a tick is due that comes after so many others. -/
def due (r : Rounds) (ticks : Nat) : Nat :=
  r.spawned.toNat + ticks * r.period

/-- When the latest of so many ticks came. -/
def latest (r : Rounds) (ticks : Nat) : Nat :=
  r.spawned.toNat + (ticks - 1) * r.period

/-- A tick: nothing the first time, then a sweep. There is none if the sweep fails. -/
def tick? (r : Rounds) (s : Stage) (failing : Failing) : Option Stage :=
  if s.ticks = 0 then some { s with ticks := s.ticks + 1 }
  else
    match Reaper.tick (ofStore failing) s.now r.maxAge s.reaped s.store with
    | (_, some (.failed _), _) => none
    | (reaped, _, store) => some ⟨s.now, s.ticks + 1, reaped, store⟩

/-- What a deed comes to, if it may happen now. -/
def step? (r : Rounds) (s : Stage) : Deed → Option Stage
  | .wait later =>
    if s.now ≤ later ∧ later.toNat ≤ r.due s.ticks then some { s with now := later } else none
  | .observe behavior o =>
    if o.timestamp = s.now then
      some { s with store := ((Lifeline.observe behavior o).run s.store).2 }
    else none
  | .tick failing => if s.now.toNat = r.due s.ticks then r.tick? s failing else none

/-- Deeds one after another. -/
def run? (r : Rounds) (s : Stage) : List Deed → Option Stage
  | [] => some s
  | deed :: rest => (r.step? s deed).bind fun next => r.run? next rest

/-- A store whose reaper is just spawned. -/
def start (r : Rounds) (store : Store) : Stage :=
  ⟨r.spawned, 0, 0, store⟩

variable {r : Rounds} {s s' : Stage}

/-! ### One deed -/

/-- The sweep of a tick. -/
def sweepNow (r : Rounds) (s : Stage) (failing : Failing) : Sweep :=
  ⟨s.now, r.maxAge, failing⟩

theorem tick?_of_later (r : Rounds) {s : Stage} (failing : Failing) (h : s.ticks ≠ 0) :
    r.tick? s failing =
      match (r.sweepNow s failing).result s.store with
      | (.ok n, store) => some ⟨s.now, s.ticks + 1, s.reaped + n, store⟩
      | (.error _, _) => none := by
  unfold tick? Reaper.tick Sweep.result sweepNow
  rw [if_neg h]
  generalize sweep (ofStore failing) s.now r.maxAge s.store = result
  obtain ⟨answer, store⟩ := result
  match answer with
  | .ok 0 => rfl
  | .ok (n + 1) => rfl
  | .error e => rfl

/-- A tick other than the first is a sweep that did not fail. -/
theorem tick?_cases {failing : Failing} (h : r.tick? s failing = some s') :
    s'.now = s.now ∧ s'.ticks = s.ticks + 1 ∧
      (s.ticks = 0 ∧ s'.store = s.store ∨
        (∃ n, ((r.sweepNow s failing).result s.store).1 = .ok n) ∧
          s'.store = (r.sweepNow s failing).apply s.store) := by
  by_cases hfirst : s.ticks = 0
  · rw [tick?, if_pos hfirst] at h
    cases h
    exact ⟨rfl, rfl, .inl ⟨hfirst, rfl⟩⟩
  · rw [r.tick?_of_later failing hfirst] at h
    unfold Sweep.apply
    split at h
    · rename_i n store heq
      cases h
      rw [heq]
      exact ⟨rfl, rfl, .inr ⟨⟨n, rfl⟩, rfl⟩⟩
    · cases h

/-- A tick that meets no failure takes place. -/
theorem tick?_never (r : Rounds) (s : Stage) : (r.tick? s .never).isSome = true := by
  by_cases hfirst : s.ticks = 0
  · rw [tick?, if_pos hfirst]
    rfl
  · obtain ⟨n, hok⟩ := Sweep.ok_of_never (w := r.sweepNow s .never) rfl s.store
    rw [r.tick?_of_later .never hfirst]
    split
    · rfl
    · rename_i heq
      rw [heq] at hok
      cases hok

/-- Everything that a deed can do. -/
theorem step?_cases {deed : Deed} (h : r.step? s deed = some s') :
    (∃ later, s.now ≤ later ∧ later.toNat ≤ r.due s.ticks ∧ s' = { s with now := later }) ∨
    (∃ behavior o, o.timestamp = s.now ∧
      s' = { s with store := ((Lifeline.observe behavior o).run s.store).2 }) ∨
    ∃ failing, s.now.toNat = r.due s.ticks ∧ r.tick? s failing = some s' := by
  cases deed with
  | wait later =>
    obtain ⟨⟨hlater, hdue⟩, rfl⟩ : (s.now ≤ later ∧ later.toNat ≤ r.due s.ticks) ∧ _ := by
      simpa [step?, eq_comm] using h
    exact .inl ⟨later, hlater, hdue, rfl⟩
  | observe behavior o =>
    obtain ⟨hnow, rfl⟩ : o.timestamp = s.now ∧ _ := by
      simpa [step?, eq_comm] using h
    exact .inr (.inl ⟨behavior, o, hnow, rfl⟩)
  | tick failing =>
    obtain ⟨hdue, htick⟩ : s.now.toNat = r.due s.ticks ∧ _ := by
      simpa [step?] using h
    exact .inr (.inr ⟨failing, hdue, htick⟩)

/-! ### What a run keeps -/

/-- It is not later than the next tick is due, and at the latest tick no record was too old. -/
structure Young (r : Rounds) (s : Stage) : Prop where
  ticked : r.latest s.ticks ≤ s.now.toNat
  in_time : s.now.toNat ≤ r.due s.ticks
  young : s.store.Each fun record =>
    r.latest s.ticks ≤ record.lastSeen.toNat + r.maxAge.toNat

theorem due_le_latest (r : Rounds) (ticks : Nat) : r.due ticks ≤ r.latest ticks + r.period := by
  unfold due latest
  cases ticks with
  | zero => omega
  | succ n =>
    rw [Nat.add_sub_cancel, Nat.succ_mul]
    omega

theorem latest_succ (r : Rounds) (ticks : Nat) : r.latest (ticks + 1) = r.due ticks := rfl

theorem due_mono (r : Rounds) (ticks : Nat) : r.due ticks ≤ r.due (ticks + 1) := by
  unfold due
  rw [Nat.succ_mul]
  omega

theorem young_start {store : Store}
    (h : store.Each fun record => record.age r.spawned ≤ r.maxAge) : r.Young (r.start store) where
  ticked := by simp [latest, start]
  in_time := by simp [due, start]
  young key record hrecord := by
    have hage := UInt64.le_iff_toNat_le.mp (h key record hrecord)
    rw [Record.toNat_age] at hage
    simp only [latest, start]
    omega

/-- A sweep that is on time leaves no record that is too old. -/
theorem Young.tick {failing : Failing} (h : r.Young s) (hdue : s.now.toNat = r.due s.ticks)
    (htick : r.tick? s failing = some s') : r.Young s' := by
  obtain ⟨hnow, hticks, hstore⟩ := tick?_cases htick
  have hlatest : r.latest s'.ticks = s.now.toNat := by rw [hticks, latest_succ, hdue]
  refine ⟨?_, ?_, fun key record hrecord => ?_⟩
  · rw [hlatest, hnow]
  · rw [hnow, hticks, hdue]
    exact r.due_mono s.ticks
  · rw [hlatest]
    obtain ⟨hfirst, hsame⟩ | ⟨⟨n, hok⟩, hswept⟩ := hstore
    · have hthen : r.latest s.ticks ≤ record.lastSeen.toNat + r.maxAge.toNat :=
        h.young key record (hsame ▸ hrecord)
      rw [hdue, hfirst]
      rwa [hfirst] at hthen
    · rw [hswept] at hrecord
      exact Sweep.spares_iff.mp (Sweep.spares_of_ok hok hrecord)

theorem Young.step {deed : Deed} (h : r.Young s) (hstep : r.step? s deed = some s') :
    r.Young s' := by
  obtain ⟨later, hlater, hdue, rfl⟩ | ⟨behavior, o, hnow, rfl⟩ | ⟨failing, hdue, htick⟩ :=
    step?_cases hstep
  · exact ⟨h.ticked.trans (UInt64.le_iff_toNat_le.mp hlater), hdue, h.young⟩
  · have hseen : r.latest s.ticks ≤ o.timestamp.toNat + r.maxAge.toNat := by
      rw [hnow]
      exact h.ticked.trans (Nat.le_add_right ..)
    refine ⟨h.ticked, h.in_time, ?_⟩
    -- a record that is moved keeps its time, and one that is new or renewed is seen now
    exact h.young.run_observe behavior hseen fun _ _ => hseen
  · exact h.tick hdue htick

theorem Young.run {deeds : List Deed} (h : r.Young s) (hrun : r.run? s deeds = some s') :
    r.Young s' := by
  induction deeds generalizing s with
  | nil =>
    cases hrun
    exact h
  | cons deed rest ih =>
    obtain ⟨next, hstep, hrest⟩ := Option.bind_eq_some_iff.mp hrun
    exact ih (h.step hstep) hrest

/-- **No record gets older than the maximal age and one period.** From a store without records
that are too old, whatever is observed: at every time all records are within that bound, right
after a tick all are within the maximal age, and no tick touches a record that is. A tick that is
due takes place, unless it meets a failure. -/
theorem staleness_bounded (r : Rounds) (store : Store) (deeds : List Deed) (s : Stage)
    (hyoung : store.Each fun record => record.age r.spawned ≤ r.maxAge)
    (hrun : r.run? (r.start store) deeds = some s) :
    (∀ key record, s.store.lookup key = some record →
      s.now.toNat - record.lastSeen.toNat ≤ r.maxAge.toNat + r.period) ∧
    (s.now.toNat = r.due s.ticks → (r.step? s (.tick .never)).isSome = true) ∧
    ∀ failing s', r.step? s (.tick failing) = some s' →
      (∀ key record, s'.store.lookup key = some record →
        s'.now.toNat - record.lastSeen.toNat ≤ r.maxAge.toNat) ∧
      ∀ key record, s.store.lookup key = some record →
        s.now.toNat ≤ record.lastSeen.toNat + r.maxAge.toNat →
        s'.store.lookup key = some record := by
  have hstage : r.Young s := (young_start hyoung).run hrun
  refine ⟨fun key record hrecord => ?_, fun hdue => ?_, fun failing s' hstep => ?_⟩
  · have hthen : r.latest s.ticks ≤ record.lastSeen.toNat + r.maxAge.toNat :=
      hstage.young key record hrecord
    have hnow := hstage.in_time.trans (r.due_le_latest s.ticks)
    omega
  · rw [step?, if_pos hdue]
    exact r.tick?_never s
  · obtain ⟨hdue, htick⟩ : s.now.toNat = r.due s.ticks ∧ r.tick? s failing = some s' := by
      simpa [step?] using hstep
    obtain ⟨hnow, hticks, hstore⟩ := tick?_cases htick
    refine ⟨fun key record hrecord => ?_, fun key record hrecord hrecent => ?_⟩
    · have hthen : r.latest s'.ticks ≤ record.lastSeen.toNat + r.maxAge.toNat :=
        (hstage.tick hdue htick).young key record hrecord
      rw [hticks, latest_succ, ← hdue] at hthen
      rw [hnow]
      omega
    · obtain ⟨-, hsame⟩ | ⟨-, hswept⟩ := hstore
      · rw [hsame]
        exact hrecord
      · rw [hswept]
        exact Sweep.lookup_apply_of_spares hrecord (Sweep.spares_iff.mpr hrecent)

/-- A store that holds an old record when its reaper is spawned. -/
def inherited : Store :=
  (Store.insertIfAbsent (.empty 4) 0x33 ⟨50, 90, 0x33⟩).2

/-- A tick every 50 nanoseconds, for records that were not seen for 60. -/
def briskly : Rounds :=
  ⟨100, 50, 60⟩

/-- A buffer is seen, and seen again at its next head, while sweeps take the old record and the
one at its first head. -/
def twoSweeps : List Deed :=
  [.tick .never, .wait 120, .observe (.ofFlags false true) ⟨0, 120, 0x1000, 0x11⟩, .wait 150,
   .tick .never, .wait 160, .observe .plain ⟨0, 160, 0x1000, 0x22⟩, .wait 200, .tick .never,
   .wait 230]

theorem twoSweeps_bounded :
    (inherited.Each fun record => record.age briskly.spawned ≤ briskly.maxAge) ∧
      ∃ s, briskly.run? (briskly.start inherited) twoSweeps = some s ∧
        s.store.toList = [(0x22, ⟨120, 160, 0x11⟩)] ∧
        ∀ key record, s.store.lookup key = some record →
          s.now.toNat - record.lastSeen.toNat ≤ briskly.maxAge.toNat + briskly.period := by
  have hyoung : inherited.Each fun record => record.age briskly.spawned ≤ briskly.maxAge :=
    (Store.each_empty _ 4).insertIfAbsent 0x33 (by decide)
  have hleft : (briskly.run? (briskly.start inherited) twoSweeps).map (fun s => s.store.toList) =
      some [(0x22, ⟨120, 160, 0x11⟩)] := by decide +kernel
  obtain ⟨s, hrun, hstore⟩ := Option.map_eq_some_iff.mp hleft
  exact ⟨hyoung, s, hrun, hstore, (staleness_bounded briskly inherited twoSweeps s hyoung hrun).1⟩

end Rounds

end Lifeline.Reaper
