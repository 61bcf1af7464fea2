import Lifeline.Proofs.Kernel.Accounting
import Mathlib.Algebra.BigOperators.Group.Finset.Piecewise
import Mathlib.Data.Fintype.BigOperators

/-! Counting on many cores at once.

To count is to read a counter and then to write it back, and the two are separate operations on
the map: whatever other cores write in between is written over. Cores take turns in any order, an
access at a time (`Clerks.step`), and what they did is logged.

A counter is short as soon as one of its counts is overtaken (`Overtaken`), and only then:
`counted_iff_not_overtaken` says so for every run of any number of cores, and
`readTogether_lost` has the shortest run that loses a count. -/
namespace Lifeline.Kernel

/-! ### Accesses -/

/-- What a core does at the map of the counters. -/
inductive Access (κ : Type) where
  | read (core : κ) (counter : Counter)
  | write (core : κ) (counter : Counter)
  deriving DecidableEq

variable {κ : Type}

def Access.core : Access κ → κ
  | read core _ => core
  | write core _ => core

/-- Whether an access writes a counter. -/
def Access.writes (counter : Counter) : Access κ → Bool
  | read _ _ => false
  | write _ written => written == counter

/-- A core has read a counter, and before it wrote it back another core did; the latest access
comes first. -/
def Overtaken (counter : Counter) (log : List (Access κ)) : Prop :=
  ∃ core after between before,
    log = after ++ .write core counter :: (between ++ .read core counter :: before) ∧
      (∀ a ∈ between, a.core ≠ core) ∧ ∃ a ∈ between, a.writes counter = true

theorem not_overtaken_nil (counter : Counter) : ¬Overtaken counter ([] : List (Access κ)) := by
  rintro ⟨core, after, between, before, hlog, -⟩
  cases after <;> cases hlog

/-- Only a write can show that its count was overtaken. -/
theorem overtaken_cons_of_not_writes {counter : Counter} {a : Access κ} {log : List (Access κ)}
    (h : a.writes counter = false) : Overtaken counter (a :: log) ↔ Overtaken counter log := by
  constructor
  · rintro ⟨core, after, between, before, hlog, hothers, hwritten⟩
    cases after with
    | nil =>
      cases hlog
      simp [Access.writes] at h
    | cons first after =>
      cases hlog
      exact ⟨core, after, between, before, rfl, hothers, hwritten⟩
  · rintro ⟨core, after, between, before, rfl, hothers, hwritten⟩
    exact ⟨core, a :: after, between, before, rfl, hothers, hwritten⟩

theorem overtaken_append_of_not_writes {counter : Counter} {later log : List (Access κ)}
    (h : ∀ a ∈ later, a.writes counter = false) :
    Overtaken counter (later ++ log) ↔ Overtaken counter log := by
  induction later with
  | nil => rfl
  | cons a rest ih =>
    obtain ⟨hnow, hrest⟩ := List.forall_mem_cons.mp h
    rw [List.cons_append, overtaken_cons_of_not_writes hnow, ih hrest]

/-- What a core did last is told by the log. -/
theorem between_unique {core : κ} {counter counter' : Counter}
    {between between' before before' : List (Access κ)}
    (h : between ++ .read core counter :: before = between' ++ .read core counter' :: before')
    (hothers : ∀ a ∈ between, a.core ≠ core) (hothers' : ∀ a ∈ between', a.core ≠ core) :
    between = between' := by
  induction between generalizing between' with
  | nil =>
    cases between' with
    | nil => rfl
    | cons a rest =>
      cases h
      exact absurd rfl (hothers' _ (List.mem_cons_self ..))
  | cons a rest ih =>
    cases between' with
    | nil =>
      cases h
      exact absurd rfl (hothers _ (List.mem_cons_self ..))
    | cons a' rest' =>
      obtain ⟨rfl, htail⟩ := List.cons.inj h
      rw [ih htail (List.forall_mem_cons.mp hothers).2 (List.forall_mem_cons.mp hothers').2]

/-- A write shows that its own count was overtaken, or what was known before. -/
theorem overtaken_cons_write {counter : Counter} {core : κ} {between before : List (Access κ)}
    (hothers : ∀ a ∈ between, a.core ≠ core) :
    Overtaken counter (.write core counter :: (between ++ .read core counter :: before)) ↔
      (∃ a ∈ between, a.writes counter = true) ∨
        Overtaken counter (between ++ .read core counter :: before) := by
  constructor
  · rintro ⟨other, after, between', before', hlog, hothers', hwritten⟩
    cases after with
    | nil =>
      obtain ⟨hfirst, hrest⟩ := List.cons.inj hlog
      cases hfirst
      rw [between_unique hrest hothers hothers']
      exact .inl hwritten
    | cons first after =>
      obtain ⟨-, hrest⟩ := List.cons.inj hlog
      exact .inr ⟨other, after, between', before', hrest, hothers', hwritten⟩
  · rintro (hwritten | ⟨other, after, between', before', hlog, hothers', hwritten⟩)
    · exact ⟨core, [], between, before, rfl, hothers, hwritten⟩
    · exact ⟨other, .write core counter :: after, between', before', by rw [hlog]; rfl, hothers',
        hwritten⟩

/-! ### Cores that count -/

/-- A core that counts. -/
structure Clerk where
  /-- What it has still to count. -/
  due : List Counter
  /-- What it found at the first of these, once it has read it. -/
  found : Option (Option UInt64)

/-- Cores, told apart by `κ`, on one map of counters. -/
structure Clerks (κ : Type) where
  counters : Counters
  clerk : κ → Clerk
  /-- The accesses so far, the latest first. -/
  log : List (Access κ)

namespace Clerks

/-- Cores that are about to count. -/
def start (plan : κ → List Counter) : Clerks κ :=
  ⟨Counters.empty, fun core => ⟨plan core, none⟩, []⟩

variable [DecidableEq κ]

/-- The next access of a core, unless it has nothing left to count. -/
def step (s : Clerks κ) (core : κ) : Clerks κ :=
  match s.clerk core with
  | ⟨[], _⟩ => s
  | ⟨counter :: due, none⟩ =>
    { s with
      clerk := Function.update s.clerk core
        ⟨counter :: due, some (s.counters.get? counter.index)⟩
      log := .read core counter :: s.log }
  | ⟨counter :: due, some value⟩ =>
    { counters := s.counters.write counter (Counters.next value)
      clerk := Function.update s.clerk core ⟨due, none⟩
      log := .write core counter :: s.log }

/-- Cores take turns. -/
def run (s : Clerks κ) : List κ → Clerks κ
  | [] => s
  | core :: rest => (s.step core).run rest

omit [DecidableEq κ] in
/-- Everything is counted. -/
def IsDone (s : Clerks κ) : Prop :=
  ∀ core, (s.clerk core).due = []

/-- What a turn can do. -/
theorem step_cases (s : Clerks κ) (core : κ) :
    ((s.clerk core).due = [] ∧ s.step core = s) ∨
      (∃ counter due, s.clerk core = ⟨counter :: due, none⟩ ∧ s.step core =
        { s with
          clerk := Function.update s.clerk core
            ⟨counter :: due, some (s.counters.get? counter.index)⟩
          log := .read core counter :: s.log }) ∨
      ∃ counter due value, s.clerk core = ⟨counter :: due, some value⟩ ∧ s.step core =
        { counters := s.counters.write counter (Counters.next value)
          clerk := Function.update s.clerk core ⟨due, none⟩
          log := .write core counter :: s.log } := by
  unfold step
  split
  · rename_i hclerk
    exact .inl ⟨by rw [hclerk], rfl⟩
  · rename_i counter due hclerk
    exact .inr (.inl ⟨counter, due, hclerk, rfl⟩)
  · rename_i counter due value hclerk
    exact .inr (.inr ⟨counter, due, value, hclerk, rfl⟩)

end Clerks

/-! ### What is counted -/

/-- A value that a counter may have come to: no more than it was written, and as much unless one of
these counts was overtaken. -/
structure Reached (counter : Counter) (log : List (Access κ)) (value : UInt64) : Prop where
  le : value.toNat ≤ log.countP (·.writes counter)
  eq_iff : value.toNat = log.countP (·.writes counter) ↔ ¬Overtaken counter log
  pos : 0 < log.countP (·.writes counter) → 0 < value.toNat

variable {counter : Counter} {log : List (Access κ)} {value : UInt64}

theorem reached_nil (counter : Counter) : Reached counter ([] : List (Access κ)) 0 where
  le := Nat.le_refl 0
  eq_iff := ⟨fun _ => not_overtaken_nil counter, fun _ => rfl⟩
  pos h := absurd h (Nat.lt_irrefl 0)

theorem Reached.cons_of_not_writes (h : Reached counter log value) {a : Access κ}
    (ha : a.writes counter = false) : Reached counter (a :: log) value := by
  have hcount : (a :: log).countP (·.writes counter) = log.countP (·.writes counter) :=
    List.countP_cons_of_neg (by simp [ha])
  exact ⟨hcount ▸ h.le, by rw [hcount, overtaken_cons_of_not_writes ha, h.eq_iff],
    hcount ▸ h.pos⟩

/-- What is written back is one more than what was read. -/
theorem Reached.write {core : κ} {between before : List (Access κ)}
    (h : Reached counter before value) (hothers : ∀ a ∈ between, a.core ≠ core)
    (hfew : (between ++ .read core counter :: before).countP (·.writes counter) + 1 <
      UInt64.size) :
    Reached counter (.write core counter :: (between ++ .read core counter :: before))
      (value + 1) := by
  have hread : (Access.read core counter).writes counter = false := rfl
  have hcount : (Access.write core counter ::
      (between ++ .read core counter :: before)).countP (·.writes counter) =
        between.countP (·.writes counter) + before.countP (·.writes counter) + 1 := by
    simp [Access.writes]
  have hlast : (between ++ .read core counter :: before).countP (·.writes counter) =
      between.countP (·.writes counter) + before.countP (·.writes counter) := by
    simp [Access.writes]
  have hle := h.le
  have hvalue : (value + 1).toNat = value.toNat + 1 := by
    rw [UInt64.toNat_add, UInt64.toNat_one]
    exact Nat.mod_eq_of_lt (by rw [hlast] at hfew; change _ < UInt64.size; omega)
  refine ⟨by omega, ?_, fun _ => by omega⟩
  rw [hcount, hvalue, overtaken_cons_write hothers]
  by_cases hwritten : ∃ a ∈ between, a.writes counter = true
  · have hpos : 0 < between.countP (·.writes counter) := List.countP_pos_iff.mpr hwritten
    exact ⟨fun heq => by omega, fun hnot => absurd (.inl hwritten) hnot⟩
  · have hnone : ∀ a ∈ between, a.writes counter = false := by simpa using hwritten
    have hzero : between.countP (·.writes counter) = 0 :=
      List.countP_eq_zero.mpr fun a ha => by simp [hnone a ha]
    rw [or_iff_right hwritten, overtaken_append_of_not_writes hnone,
      overtaken_cons_of_not_writes hread, ← h.eq_iff, hzero]
    omega

namespace Clerks

variable [Fintype κ]

/-- How often a counter is to be counted. -/
def planned (plan : κ → List Counter) (counter : Counter) : Nat :=
  ∑ core, (plan core).count counter

/-- The map, what cores have read, and the log tell the same of a counter. -/
structure Tracks (plan : κ → List Counter) (counter : Counter) (s : Clerks κ) : Prop where
  proper : s.counters.Proper
  value : Reached counter s.log (s.counters.value counter)
  found : ∀ core due value, s.clerk core = ⟨counter :: due, some value⟩ →
    ∃ between before, s.log = between ++ .read core counter :: before ∧
      (∀ a ∈ between, a.core ≠ core) ∧ Reached counter before (value.getD 0)
  planned : s.log.countP (·.writes counter) +
    Clerks.planned (fun core => (s.clerk core).due) counter = Clerks.planned plan counter

theorem tracks_start (plan : κ → List Counter) (counter : Counter) :
    (start plan).Tracks plan counter where
  proper := Counters.proper_empty
  value := by
    have hzero : (start plan).counters.value counter = 0 := by
      rw [start, Counters.value, Counters.empty, BoundedMap.get?_empty]
      rfl
    rw [hzero]
    exact reached_nil counter
  found core due value h := by simp [start] at h
  planned := by simp [start]

variable [DecidableEq κ] {plan : κ → List Counter} {s : Clerks κ}

theorem planned_update (s : Clerks κ) (core : κ) (now : Clerk) (counter : Counter) :
    Clerks.planned (fun k => (Function.update s.clerk core now k).due) counter +
        (s.clerk core).due.count counter =
      Clerks.planned (fun k => (s.clerk k).due) counter + now.due.count counter := by
  have hupdate : (fun k => (Function.update s.clerk core now k).due.count counter) =
      Function.update (fun k => (s.clerk k).due.count counter) core (now.due.count counter) := by
    funext k
    by_cases hk : k = core
    · subst hk
      simp
    · simp [hk]
  rw [Clerks.planned, Clerks.planned, hupdate, Finset.sum_update_of_mem (Finset.mem_univ core),
    ← Finset.add_sum_erase _ _ (Finset.mem_univ core), Finset.sdiff_singleton_eq_erase]
  omega

/-- What cores hold is as it was, once it is so for the one that had its turn. -/
theorem Tracks.found_update (h : s.Tracks plan counter) (core : κ) (now : Clerk) (a : Access κ)
    (ha : a.core = core)
    (hnow : ∀ due value, now = ⟨counter :: due, some value⟩ →
      a = .read core counter ∧ Reached counter s.log (value.getD 0)) :
    ∀ other due value, Function.update s.clerk core now other = ⟨counter :: due, some value⟩ →
      ∃ between before, a :: s.log = between ++ .read other counter :: before ∧
        (∀ a ∈ between, a.core ≠ other) ∧ Reached counter before (value.getD 0) := by
  intro other due value hother
  by_cases hcore : other = core
  · subst hcore
    rw [Function.update_self] at hother
    obtain ⟨hread, hreached⟩ := hnow due value hother
    exact ⟨[], s.log, by rw [hread]; rfl, by simp, hreached⟩
  · rw [Function.update_of_ne hcore] at hother
    obtain ⟨between, before, hlog, hothers, hreached⟩ := h.found other due value hother
    refine ⟨a :: between, before, by rw [hlog]; rfl, ?_, hreached⟩
    exact List.forall_mem_cons.mpr ⟨fun heq => hcore (heq.symm.trans ha), hothers⟩

theorem Tracks.step (h : s.Tracks plan counter) (hfew : Clerks.planned plan counter < UInt64.size)
    (core : κ) : (s.step core).Tracks plan counter := by
  have hplanned := h.planned
  obtain ⟨-, hstep⟩ | ⟨counter', due, hclerk, hstep⟩ | ⟨counter', due, value, hclerk, hstep⟩ :=
    s.step_cases core
  · rw [hstep]
    exact h
  · have hupdate := s.planned_update core ⟨counter' :: due, some (s.counters.get? counter'.index)⟩
      counter
    rw [hstep]
    refine ⟨h.proper, h.value.cons_of_not_writes rfl, ?_, ?_⟩
    · refine h.found_update core _ (.read core counter') rfl fun due' value' hnow => ?_
      cases hnow
      exact ⟨rfl, h.value⟩
    · rw [hclerk] at hupdate
      rw [List.countP_cons_of_neg (by simp [Access.writes])]
      exact (congrArg _ (Nat.add_right_cancel hupdate)).trans hplanned
  · have hupdate :
        Clerks.planned (fun k => (Function.update s.clerk core ⟨due, none⟩ k).due) counter +
          (counter' :: due).count counter =
            Clerks.planned (fun k => (s.clerk k).due) counter + due.count counter := by
      have hany := s.planned_update core ⟨due, none⟩ counter
      rwa [hclerk] at hany
    rw [hstep]
    refine ⟨h.proper.write counter' _, ?_, ?_, ?_⟩
    · rw [h.proper.value_write]
      split
      · rename_i heq
        subst heq
        obtain ⟨between, before, hlog, hothers, hreached⟩ := h.found core due value hclerk
        rw [Counters.next_eq, hlog]
        refine hreached.write hothers ?_
        rw [← hlog]
        simp only [List.count_cons_self] at hupdate
        omega
      · rename_i hne
        exact h.value.cons_of_not_writes (by simpa [Access.writes] using Ne.symm hne)
    · exact h.found_update core _ (.write core counter') rfl fun due' value' hnow => nomatch hnow
    · have hcount : (Access.write core counter' :: s.log).countP (·.writes counter) =
          s.log.countP (·.writes counter) + if counter' == counter then 1 else 0 :=
        List.countP_cons
      rw [List.count_cons] at hupdate
      show (Access.write core counter' :: s.log).countP (·.writes counter) +
        Clerks.planned (fun k => (Function.update s.clerk core ⟨due, none⟩ k).due) counter = _
      omega

theorem Tracks.run (h : s.Tracks plan counter) (hfew : Clerks.planned plan counter < UInt64.size)
    (turns : List κ) : (s.run turns).Tracks plan counter := by
  induction turns generalizing s with
  | nil => exact h
  | cons core rest ih => exact ih (h.step hfew core)

/-- **A counter is short if and only if one of its counts was overtaken**: however cores take turns,
once all is counted it has not more than was to be counted, as much if between the read and the
write of each of its counts no other core wrote it, and less otherwise; and it never stays at
zero. -/
theorem counted_iff_not_overtaken (plan : κ → List Counter) (turns : List κ) (counter : Counter)
    (hdone : ((start plan).run turns).IsDone) (hfew : planned plan counter < UInt64.size) :
    let done := (start plan).run turns
    (done.counters.value counter).toNat ≤ planned plan counter ∧
      ((done.counters.value counter).toNat = planned plan counter ↔
        ¬Overtaken counter done.log) ∧
      (0 < planned plan counter → 0 < (done.counters.value counter).toNat) := by
  intro done
  have htracks : done.Tracks plan counter := (tracks_start plan counter).run hfew turns
  have hwritten : done.log.countP (·.writes counter) = planned plan counter := by
    have hnone : planned (fun core => (done.clerk core).due) counter = 0 :=
      Finset.sum_eq_zero fun core _ => List.count_eq_zero.mpr (by simp [hdone core, done])
    have hplanned := htracks.planned
    omega
  rw [← hwritten]
  exact ⟨htracks.value.le, htracks.value.eq_iff, htracks.value.pos⟩

/-- Three cores: two count calls, and two count buffers. -/
def shift : Fin 3 → List Counter
  | 0 => [.totalEvents, .tracked]
  | 1 => [.totalEvents]
  | 2 => [.tracked]

/-- The first two cores read the calls together; the last counts a buffer around a write of
another counter. -/
def shiftTurns : List (Fin 3) :=
  [0, 1, 0, 0, 0, 2, 1, 2]

/-- A call is lost, and no buffer. -/
theorem shift_counted :
    let done := (start shift).run shiftTurns
    done.IsDone ∧ planned shift .totalEvents = 2 ∧ planned shift .tracked = 2 ∧
      (done.counters.value .totalEvents).toNat = 1 ∧ Overtaken .totalEvents done.log ∧
      (done.counters.value .tracked).toNat = 2 ∧ ¬Overtaken .tracked done.log := by
  intro done
  have hdone : done.IsDone := by
    unfold IsDone
    decide +kernel
  have hcalls : (done.counters.value .totalEvents).toNat = 1 := by decide +kernel
  have hbuffers : (done.counters.value .tracked).toNat = 2 := by decide +kernel
  have hplanned : planned shift .totalEvents = 2 ∧ planned shift .tracked = 2 := by decide +kernel
  obtain ⟨-, hshort, -⟩ :=
    counted_iff_not_overtaken shift shiftTurns .totalEvents hdone (by decide +kernel)
  obtain ⟨-, hfull, -⟩ :=
    counted_iff_not_overtaken shift shiftTurns .tracked hdone (by decide +kernel)
  refine ⟨hdone, hplanned.1, hplanned.2, hcalls, ?_, hbuffers, ?_⟩
  · by_contra hnot
    have hall := (hshort.mpr hnot).trans hplanned.1
    exact absurd (hcalls.symm.trans hall) (by decide)
  · exact hfull.mp (hbuffers.trans hplanned.2.symm)

/-- Two cores count a call each, and one call is told. -/
theorem readTogether_lost :
    let plan : Fin 2 → List Counter := fun _ => [.totalEvents]
    let done := (start plan).run [0, 1, 0, 1]
    done.IsDone ∧ planned plan .totalEvents = 2 ∧ done.counters.value .totalEvents = 1 := by
  refine ⟨?_, by decide +kernel, by decide +kernel⟩
  unfold IsDone
  decide +kernel

end Clerks

end Lifeline.Kernel
