import Lifeline.Proofs.Kernel.Delivery

/-! Every call is accounted for.

The map of the counters has room for all of them, so that counting never fails: after any
counting it tells how often each of them was counted (`Counters.Tells`), as far as a word can
tell. A call counts itself and the exit that it leaves by, and where that exit sends no event it
does nothing else (`Machine.fire_exit`).

`Link.calls_accounted` says what the counters of a link come to, whatever happens between its
calls. -/
namespace Lifeline

open Kernel

namespace Kernel

/-! ### The map of the counters -/

/-- The map has the capacity and the keys of the counters. -/
structure Counters.Proper (c : Counters) : Prop where
  capacity : c.capacity = Counter.all.length
  keys : ∀ key, c.get? key ≠ none → ∃ counter : Counter, key = counter.index

theorem Counters.proper_empty : Counters.empty.Proper where
  capacity := rfl
  keys key h := absurd (BoundedMap.get?_empty _ key) h

theorem Counter.index_mem (counter : Counter) : counter.index ∈ Counter.all.map Counter.index := by
  cases counter <;> decide

theorem Counters.next_eq (value : Option UInt64) : Counters.next value = value.getD 0 + 1 := by
  cases value <;> rfl

namespace Counters.Proper

variable {c : Counters}

/-- A counter that has no entry yet finds room for it. -/
theorem put?_ne_none (h : c.Proper) (counter : Counter) (value : UInt64) :
    c.put? counter.index value ≠ none := by
  intro hrefused
  obtain ⟨hnew, hfull⟩ := (BoundedMap.put?_eq_none_iff c counter.index value).mp hrefused
  have hothers : c.size ≤ ((Counter.all.map Counter.index).toFinset.erase counter.index).card := by
    refine c.size_le_card fun key hkey => Finset.mem_erase.mpr ⟨?_, ?_⟩
    · rintro rfl
      exact hkey hnew
    · obtain ⟨other, rfl⟩ := h.keys key hkey
      exact List.mem_toFinset.mpr other.index_mem
  rw [Finset.card_erase_of_mem (List.mem_toFinset.mpr counter.index_mem)] at hothers
  have hall : (Counter.all.map Counter.index).toFinset.card = Counter.all.length := by decide
  have hsome : 0 < Counter.all.length := by decide
  rw [h.capacity] at hfull
  omega

theorem get?_write (h : c.Proper) (counter : Counter) (value : UInt64) (key : UInt32) :
    (c.write counter value).get? key = if counter.index = key then some value else c.get? key := by
  obtain ⟨c', hput⟩ := Option.ne_none_iff_exists'.mp (h.put?_ne_none counter value)
  rw [Counters.write, hput, Option.getD_some, BoundedMap.get?_put? hput]

theorem value_write (h : c.Proper) (counter other : Counter) (value : UInt64) :
    (c.write counter value).value other = if other = counter then value else c.value other := by
  rw [Counters.value, h.get?_write]
  by_cases heq : other = counter
  · rw [if_pos (congrArg Counter.index heq.symm), if_pos heq]
    rfl
  · rw [if_neg (fun hindex => heq (Counter.index_injective hindex).symm), if_neg heq,
      Counters.value]

theorem write (h : c.Proper) (counter : Counter) (value : UInt64) :
    (c.write counter value).Proper where
  capacity := by
    rw [← h.capacity, Counters.write]
    cases hput : c.put? counter.index value with
    | none => rfl
    | some c' => exact BoundedMap.capacity_put? hput
  keys key hkey := by
    rw [h.get?_write] at hkey
    split at hkey
    · rename_i hindex
      exact ⟨counter, hindex.symm⟩
    · exact h.keys key hkey

end Counters.Proper

/-- The map tells how often each counter was counted, modulo the size of a word. -/
structure Counters.Tells (c : Counters) (counted : List Counter) : Prop where
  capacity : c.capacity = Counter.all.length
  keys : ∀ key, c.get? key ≠ none → ∃ counter : Counter, key = counter.index
  value : ∀ counter, c.value counter = UInt64.ofNat (counted.count counter)

theorem Counters.tells_empty : Counters.empty.Tells [] where
  capacity := rfl
  keys := Counters.proper_empty.keys
  value counter := by rw [Counters.value, Counters.empty, BoundedMap.get?_empty]; rfl

namespace Counters.Tells

variable {c : Counters} {counted : List Counter}

theorem proper (h : c.Tells counted) : c.Proper :=
  ⟨h.capacity, h.keys⟩

theorem value_increment (h : c.Tells counted) (counter other : Counter) :
    (c.increment counter).value other =
      c.value other + if other = counter then 1 else 0 := by
  rw [Counters.increment, h.proper.value_write, next_eq]
  by_cases heq : other = counter
  · rw [if_pos heq, if_pos heq, heq, Counters.value]
  · rw [if_neg heq, if_neg heq, UInt64.add_zero]

theorem increment (h : c.Tells counted) (counter : Counter) :
    (c.increment counter).Tells (counted ++ [counter]) where
  capacity := (h.proper.write counter _).capacity
  keys := (h.proper.write counter _).keys
  value other := by
    rw [h.value_increment, h.value, List.count_append, List.count_singleton, UInt64.ofNat_add]
    by_cases heq : other = counter
    · simp [heq]
    · simp [heq, Ne.symm heq]

end Counters.Tells

/-! ### One call -/

/-- What is counted of a call that leaves by this exit. -/
def Exit.counts (exit : Exit) : List Counter :=
  .totalEvents :: exit.counter?.toList

section

variable {exit other : Exit} {own : Counter}

theorem Exit.eq_of_counter? (h : exit.counter? = some own) (h' : other.counter? = some own) :
    exit = other := by
  cases exit <;> cases h <;> cases other <;> first | rfl | cases h'

theorem Exit.sends_iff (h : exit.counter? = some own) :
    exit.sends = true ↔ own ∈ [Counter.sectionFull, .tracked] := by
  cases exit <;> cases h <;> decide

theorem Exit.not_sends_iff (h : exit.counter? = some own) : exit.sends = false ↔
    own ∈ [Counter.noConfig, .noSkb, .reserveFailed, .noHead] := by
  cases exit <;> cases h <;> decide

theorem Exit.counter?_ne_total (exit : Exit) : exit.counter? ≠ some .totalEvents := by
  cases exit <;> decide

end

namespace Machine

/-- What a call comes to: it counts itself and its exit, and by an exit that sends an event it
tracks a buffer and sends the event. The exit that is not counted is never taken. -/
theorem fire_exit (m : Machine) (slot : RawEvent) (i : Invocation) :
    ∃ own, (m.fire slot i).1.counter? = some own ∧
      ((m.fire slot i).1.sends = false ∧ (m.fire slot i).2 =
          { m with counters := (m.counters.increment .totalEvents).increment own } ∨
        (m.fire slot i).1.sends = true ∧ ∃ (tracked : Store) (bytes : List UInt8),
          (m.fire slot i).2 =
            { m with
              counters := (m.counters.increment .totalEvents).increment own
              tracked := tracked
              ring := m.ring.push bytes }) := by
  obtain ⟨exit, hexit, hcounted, -, hprobe⟩ | ⟨_, event, tracked, -, -, hprobe⟩ :=
    (m.count .totalEvents).probe_cases slot i
  · rw [fire, hprobe]
    cases exit with
    | discarded => exact absurd rfl hcounted
    | sectionFull | tracked => cases hexit
    | noConfig | noSkb | reserveFailed | noHead => exact ⟨_, rfl, .inl ⟨rfl, rfl⟩⟩
  · rw [fire, hprobe]
    exact ⟨.tracked, rfl, .inr ⟨rfl, tracked, event.bytes, rfl⟩⟩

theorem exit_fire_ne_discarded (m : Machine) (slot : RawEvent) (i : Invocation) :
    (m.fire slot i).1 ≠ .discarded := by
  obtain ⟨own, hown, -⟩ := m.fire_exit slot i
  intro hexit
  rw [hexit] at hown
  cases hown

theorem counters_fire {m : Machine} {slot : RawEvent} {i : Invocation} {own : Counter}
    (h : (m.fire slot i).1.counter? = some own) :
    (m.fire slot i).2.counters = (m.counters.increment .totalEvents).increment own := by
  obtain ⟨_, hown, ⟨-, hnext⟩ | ⟨-, tracked, bytes, hnext⟩⟩ := m.fire_exit slot i
  all_goals
    cases hown.symm.trans h
    rw [hnext]

/-- By an exit that sends no event a call does nothing but count. -/
theorem fire_of_not_sends {m : Machine} {slot : RawEvent} {i : Invocation}
    (h : (m.fire slot i).1.sends = false) :
    (m.fire slot i).2 = { m with counters := (m.fire slot i).2.counters } := by
  obtain ⟨_, -, ⟨-, hnext⟩ | ⟨hsends, -⟩⟩ := m.fire_exit slot i
  · exact hnext.trans (by rw [hnext])
  · exact absurd (h.symm.trans hsends) (by decide)

theorem ring_fire_of_sends {m : Machine} {slot : RawEvent} {i : Invocation}
    (h : (m.fire slot i).1.sends = true) :
    ∃ bytes, (m.fire slot i).2.ring = m.ring.push bytes := by
  obtain ⟨_, -, ⟨hsends, -⟩ | ⟨-, tracked, bytes, hnext⟩⟩ := m.fire_exit slot i
  · exact absurd (h.symm.trans hsends) (by decide)
  · exact ⟨bytes, by rw [hnext]⟩

theorem configuration_fire (m : Machine) (slot : RawEvent) (i : Invocation) :
    (m.fire slot i).2.probes = m.probes ∧ (m.fire slot i).2.behaviors = m.behaviors := by
  obtain ⟨_, -, ⟨-, hnext⟩ | ⟨-, tracked, bytes, hnext⟩⟩ := m.fire_exit slot i
  · rw [hnext]
    exact ⟨rfl, rfl⟩
  · rw [hnext]
    exact ⟨rfl, rfl⟩

/-- A call counts itself, and the exit that it leaves by. -/
theorem tells_fire {m : Machine} {counted : List Counter} (h : m.counters.Tells counted)
    (slot : RawEvent) (i : Invocation) :
    (m.fire slot i).2.counters.Tells (counted ++ (m.fire slot i).1.counts) := by
  obtain ⟨own, hown, -⟩ := m.fire_exit slot i
  rw [counters_fire hown, Exit.counts, hown, Option.toList_some, ← List.singleton_append,
    ← List.append_assoc]
  exact (h.increment .totalEvents).increment own

theorem value_fire {m : Machine} {counted : List Counter} (h : m.counters.Tells counted)
    {slot : RawEvent} {i : Invocation} {own : Counter}
    (hown : (m.fire slot i).1.counter? = some own) (counter : Counter) :
    (m.fire slot i).2.counters.value counter = m.counters.value counter +
      if counter = .totalEvents ∨ counter = own then 1 else 0 := by
  rw [counters_fire hown, (h.increment _).value_increment, h.value_increment]
  by_cases htotal : counter = .totalEvents
  · have hne : counter ≠ own := by
      rintro rfl
      exact Exit.counter?_ne_total _ (hown.trans (congrArg some htotal))
    rw [if_pos htotal, if_neg hne, if_pos (.inl htotal), UInt64.add_zero]
  · rw [if_neg htotal, UInt64.add_zero]
    simp only [htotal, false_or]

end Machine

/-! ### The exits of a run -/

theorem count_total (exits : List Exit) :
    (exits.flatMap Exit.counts).count .totalEvents = exits.length := by
  induction exits with
  | nil => rfl
  | cons exit rest ih =>
    have hown : .totalEvents ∉ exit.counter?.toList := fun hmem =>
      exit.counter?_ne_total (Option.mem_toList.mp hmem)
    rw [List.flatMap_cons, List.count_append, ih, List.length_cons, Exit.counts,
      List.count_cons_self, List.count_eq_zero_of_not_mem hown]
    omega

theorem count_exit (exits : List Exit) {exit : Exit} {own : Counter}
    (h : exit.counter? = some own) :
    (exits.flatMap Exit.counts).count own = exits.count exit := by
  have hne : Counter.totalEvents ≠ own := fun heq =>
    exit.counter?_ne_total (h.trans (congrArg some heq.symm))
  induction exits with
  | nil => rfl
  | cons first rest ih =>
    have hfirst : first.counter?.toList.count own = if first = exit then 1 else 0 := by
      split
      · rename_i hsame
        rw [hsame, h, Option.toList_some, List.count_singleton_self]
      · rename_i hother
        exact List.count_eq_zero_of_not_mem fun hmem =>
          hother (Exit.eq_of_counter? (Option.mem_toList.mp hmem) h)
    rw [List.flatMap_cons, List.count_append, ih, List.count_cons, Exit.counts,
      List.count_cons_of_ne hne, hfirst]
    simp only [beq_iff_eq]
    omega

/-- Each exit that is counted is one of the six. -/
theorem sum_count_exits {exits : List Exit} (h : .discarded ∉ exits) :
    exits.count .noConfig + exits.count .noSkb + exits.count .reserveFailed +
      exits.count .noHead + exits.count .sectionFull + exits.count .tracked = exits.length := by
  induction exits with
  | nil => rfl
  | cons exit rest ih =>
    rw [List.length_cons, ← ih fun hlater => h (List.mem_cons_of_mem exit hlater)]
    simp only [List.count_cons]
    cases exit with
    | discarded => exact absurd List.mem_cons_self h
    | noConfig | noSkb | reserveFailed | noHead | sectionFull | tracked => simp <;> omega

theorem countP_sends (exits : List Exit) :
    exits.countP Exit.sends = exits.count .tracked + exits.count .sectionFull := by
  induction exits with
  | nil => rfl
  | cons exit rest ih =>
    rw [List.countP_cons, List.count_cons, List.count_cons, ih]
    cases exit <;> simp [Exit.sends] <;> omega

end Kernel

namespace Link

/-- Whether a step is a call. -/
def Step.isCall : Step → Bool
  | .call .. => true
  | .change _ | .read _ => false

/-- The exit of a step, if it is a call. -/
def exitsBy (l : Link) : Step → List Exit
  | .call slot i => [(l.machine.fire slot i).1]
  | .change _ | .read _ => []

/-- The exits of the calls among steps one after another. -/
def exits (l : Link) : List Step → List Exit
  | [] => []
  | s :: rest => l.exitsBy s ++ (l.step s).exits rest

theorem length_exits (l : Link) (steps : List Step) :
    (l.exits steps).length = steps.countP Step.isCall := by
  induction steps generalizing l with
  | nil => rfl
  | cons s rest ih =>
    rw [exits, List.length_append, ih, List.countP_cons]
    cases s <;> simp [exitsBy, Step.isCall, Nat.add_comm]

theorem discarded_notMem_exits (l : Link) (steps : List Step) : .discarded ∉ l.exits steps := by
  induction steps generalizing l with
  | nil => exact List.not_mem_nil
  | cons s rest ih =>
    rw [exits, List.mem_append, not_or]
    refine ⟨fun hmem => ?_, ih _⟩
    cases s with
    | call slot i => exact l.machine.exit_fire_ne_discarded slot i (List.mem_singleton.mp hmem).symm
    | change | read => cases hmem

theorem tells_run {l : Link} {counted : List Counter} (h : l.machine.counters.Tells counted)
    (steps : List Step) :
    (l.run steps).machine.counters.Tells
      (counted ++ (l.exits steps).flatMap Exit.counts) := by
  induction steps generalizing l counted with
  | nil => simpa [run, exits] using h
  | cons s rest ih =>
    rw [run, exits, List.flatMap_append, ← List.append_assoc]
    refine ih ?_
    cases s with
    | call slot i =>
      rw [exitsBy, List.flatMap_singleton]
      exact Machine.tells_fire h slot i
    | change | read =>
      rw [exitsBy, List.flatMap_nil, List.append_nil]
      exact h

/-- As many events are submitted as calls leave by an exit that sends one. -/
theorem length_submitted (l : Link) (steps : List Step) :
    (l.submitted steps).length = (l.exits steps).countP Exit.sends := by
  induction steps generalizing l with
  | nil => rfl
  | cons s rest ih =>
    rw [submitted, exits, List.length_append, List.countP_append, ih]
    congr 1
    cases s with
    | call slot i =>
      rw [submittedBy, exitsBy, List.countP_singleton]
      obtain ⟨_, -, ⟨hexit, hnext⟩ | ⟨hexit, tracked, bytes, hnext⟩⟩ := l.machine.fire_exit slot i
      · simp [hexit, hnext]
      · simp [hexit, hnext, Ring.push]
    | change | read => rfl

/-- Calls and reads leave the configuration alone. -/
theorem configuration_run (l : Link) (steps : List Step)
    (h : ∀ other, Step.change other ∉ steps) :
    (l.run steps).machine.probes = l.machine.probes ∧
      (l.run steps).machine.behaviors = l.machine.behaviors := by
  induction steps generalizing l with
  | nil => exact ⟨rfl, rfl⟩
  | cons s rest ih =>
    have hrest := ih (l.step s) fun other hother => h other (List.mem_cons_of_mem s hother)
    rw [run, hrest.1, hrest.2]
    cases s with
    | call slot i => exact l.machine.configuration_fire slot i
    | change other => exact absurd (List.mem_cons_self ..) (h other)
    | read verbose => exact ⟨rfl, rfl⟩

/-- **Every call is counted once as a call and once by the exit that it leaves by.** So the exits
add up to the calls, and those that send an event to the events submitted. A further call leaves by
an exit that is counted, and adds one to both of its counters and to no other; unless it sends an
event, counting is all it does, and it never changes the configuration. -/
theorem calls_accounted (m : Machine) (probes : List Probe.Resolved) (steps : List Step)
    (hempty : m.counters = Counters.empty) (hfew : steps.countP Step.isCall < UInt64.size) :
    let start : Link := ⟨m, .start probes⟩
    let done := (start.run steps).machine
    let value (counter : Counter) : Nat := (done.counters.value counter).toNat
    value .totalEvents = steps.countP Step.isCall ∧
      value .noConfig + value .noSkb + value .reserveFailed + value .noHead +
        value .sectionFull + value .tracked = steps.countP Step.isCall ∧
      (start.submitted steps).length = value .tracked + value .sectionFull ∧
      ((∀ other, Step.change other ∉ steps) →
        done.probes = m.probes ∧ done.behaviors = m.behaviors) ∧
      ∀ slot i,
        let next := (done.fire slot i).2
        ∃ own, (done.fire slot i).1.counter? = some own ∧ own ≠ .totalEvents ∧
          (∀ counter, next.counters.value counter = done.counters.value counter +
            if counter = .totalEvents ∨ counter = own then 1 else 0) ∧
          (own ∈ [.noConfig, .noSkb, .reserveFailed, .noHead] →
            next = { done with counters := next.counters }) ∧
          (own ∈ [.sectionFull, .tracked] → ∃ bytes, next.ring = done.ring.push bytes) ∧
          next.probes = done.probes ∧ next.behaviors = done.behaviors := by
  intro start done value
  have hstart : start.machine.counters.Tells [] := by
    show m.counters.Tells []
    rw [hempty]
    exact Counters.tells_empty
  have htells : done.counters.Tells ((start.exits steps).flatMap Exit.counts) :=
    tells_run hstart steps
  have hlength := start.length_exits steps
  -- with fewer calls than a word can tell, no counter has wrapped
  have hvalue (counter : Counter) (n : Nat)
      (hcount : ((start.exits steps).flatMap Exit.counts).count counter = n)
      (hn : n ≤ (start.exits steps).length) : value counter = n := by
    show (done.counters.value counter).toNat = n
    rw [htells.value, hcount]
    exact UInt64.toNat_ofNat_of_lt' (by omega)
  have htotal := hvalue .totalEvents _ (count_total _) le_rfl
  have hexit (exit : Exit) (own : Counter) (hown : exit.counter? = some own) :
      value own = (start.exits steps).count exit :=
    hvalue own _ (count_exit _ hown) List.count_le_length
  refine ⟨htotal.trans hlength, ?_, ?_, start.configuration_run steps, fun slot i => ?_⟩
  · rw [← hlength, ← sum_count_exits (start.discarded_notMem_exits steps),
      hexit .noConfig _ rfl, hexit .noSkb _ rfl, hexit .reserveFailed _ rfl, hexit .noHead _ rfl,
      hexit .sectionFull _ rfl, hexit .tracked _ rfl]
  · rw [start.length_submitted, countP_sends, hexit .tracked _ rfl, hexit .sectionFull _ rfl]
  · obtain ⟨own, hown, -⟩ := done.fire_exit slot i
    refine ⟨own, hown, fun htotal => Exit.counter?_ne_total _ (htotal ▸ hown),
      Machine.value_fire htells hown,
      fun hunsent => Machine.fire_of_not_sends ((Exit.not_sends_iff hown).mpr hunsent),
      fun hsent => Machine.ring_fire_of_sends ((Exit.sends_iff hown).mpr hsent),
      done.configuration_fire slot i⟩

/-- A machine like `rig`, with room for one event. -/
def narrow : Machine :=
  { rig 0x22 (.empty 8) with ring := ⟨1, []⟩ }

/-- Calls of a function that is not configured, without a buffer, of a buffer without a head, and
two of a buffer with one: the second finds the ring full. -/
def everyExit : List Step :=
  [.call litter ⟨0x99, 80, [0x1000]⟩, .call litter ⟨0x10, 90, []⟩,
   .call litter ⟨0x10, 100, [0x2000]⟩, .call litter ⟨0x10, 110, [0x1000]⟩,
   .call litter ⟨0x10, 120, [0x1000]⟩]

/-- Five calls, by five exits, and one event. -/
theorem everyExit_accounted :
    narrow.counters = Counters.empty ∧ everyExit.countP Step.isCall < UInt64.size ∧
      ((run ⟨narrow, .start []⟩ everyExit).machine.counters.value .totalEvents).toNat = 5 ∧
      ((run ⟨narrow, .start []⟩ everyExit).machine.counters.value .tracked).toNat = 1 ∧
      (submitted ⟨narrow, .start []⟩ everyExit).length = 1 := by
  have hfew : everyExit.countP Step.isCall < UInt64.size := by decide
  obtain ⟨htotal, -, hsubmitted, -⟩ := calls_accounted narrow [] everyExit rfl hfew
  have htracked : (run ⟨narrow, .start []⟩ everyExit).machine.counters.value .tracked = 1 := by
    decide +kernel
  have hfull : (run ⟨narrow, .start []⟩ everyExit).machine.counters.value .sectionFull = 0 := by
    decide +kernel
  refine ⟨rfl, hfew, htotal, by rw [htracked]; rfl, ?_⟩
  rw [hsubmitted]
  simp only [htracked, hfull]
  rfl

end Link

end Lifeline
