import Lifeline.Proofs.Kernel.Accounting
import Lifeline.Proofs.Kernel.Configuration
import Lifeline.Proofs.Probe.Acceptance
import Lifeline.Proofs.Report.Grouping

/-! Which buffers are freed, in the kernel and in the report.

Both sides are told the same probes. The collector takes a function for one that frees if any probe
at its address does; the kernel program has one behavior for an address, that of the last probe
there that has one to tell. So they differ where a freeing probe is overruled by a later one
(`Probe.Overruled`), and nowhere else: `freed_told` says what that makes of the timelines, and
`released_not_handled` has a buffer that is reported as freed and was never handled so. -/
namespace Lifeline

namespace Probe

/-- One of the probes at an address frees buffers, but the last one there that has a behavior does
not. -/
def Overruled (probes : List Resolved) (address : Address) : Prop :=
  FreesAt probes address ∧
    ∃ p, IsLast (special probes) p ∧ p.address = address ∧ p.frees = false

variable {probes : List Resolved} {address : Address}

theorem Resolved.frees_getD (p : Resolved) : (p.behavior.getD .plain).frees = p.frees := by
  unfold Resolved.frees
  cases p.behavior <;> rfl

theorem IsLast.eq {p q : Resolved} (hp : IsLast probes p) (hq : IsLast probes q)
    (h : p.address = q.address) : p = q := by
  have hfound := lastAt?_eq_some_iff.mpr ⟨h, hp⟩
  exact Option.some.inj (hfound.symm.trans (lastAt?_eq_some_iff.mpr ⟨rfl, hq⟩))

/-- The last probe with a behavior frees if one does and it is not overruled. -/
theorem exists_isLast_frees_iff : (∃ p, IsLast (special probes) p ∧ p.address = address ∧
    p.frees = true) ↔ FreesAt probes address ∧ ¬ Overruled probes address := by
  constructor
  · rintro ⟨p, hlast, rfl, hfrees⟩
    refine ⟨⟨p, List.mem_of_mem_filter hlast.mem, rfl, hfrees⟩, ?_⟩
    rintro ⟨-, q, hq, haddress, hplain⟩
    rw [hq.eq hlast haddress, hfrees] at hplain
    cases hplain
  · rintro ⟨hany, hruling⟩
    obtain ⟨p, hp, rfl, hfrees⟩ := hany
    have hspecial : p ∈ special probes := by
      refine List.mem_filter.mpr ⟨hp, ?_⟩
      unfold Resolved.frees at hfrees
      cases hbehavior : p.behavior with
      | none => simp [hbehavior] at hfrees
      | some _ => rfl
    obtain ⟨q, -, haddress, hlast⟩ := exists_isLast hspecial
    refine ⟨q, hlast, haddress, ?_⟩
    cases hq : q.frees with
    | true => rfl
    | false => exact absurd ⟨⟨p, hp, rfl, hfrees⟩, q, hlast, haddress, hq⟩ hruling

/-- What frees is what the set has as freeing. -/
theorem freesAt_resolve_iff {set : ProbeSet} {symbols : Symbols} :
    FreesAt (set.resolve symbols) address ↔
      ∃ spec ∈ set.probes, symbols.addressOf? spec.symbol = some address ∧ spec.free = true := by
  constructor
  · rintro ⟨p, hp, rfl, hfrees⟩
    obtain ⟨spec, hspec, hlocate⟩ := List.mem_filterMap.mp hp
    obtain ⟨haddress, hp⟩ := ProbeSet.locate?_eq_some hlocate
    rw [hp] at hfrees
    exact ⟨spec, hspec, haddress, spec.any_frees_behavior? ▸ hfrees⟩
  · rintro ⟨spec, hspec, haddress, hfree⟩
    have hlocate : ProbeSet.locate? symbols spec =
        some ⟨spec.symbol, address, spec.offsets, spec.behavior?⟩ := by
      rw [ProbeSet.locate?, haddress]
      rfl
    exact ⟨_, List.mem_filterMap.mpr ⟨spec, hspec, hlocate⟩, rfl,
      spec.any_frees_behavior?.trans hfree⟩

end Probe

open Probe Kernel

/-! ### What the two sides are told -/

/-- The program has it that a function frees buffers. -/
def Kernel.Machine.Frees (m : Machine) (function : Address) : Prop :=
  ∃ behavior, m.behaviors.get? function = some behavior ∧ behavior.frees = true

theorem Kernel.Machine.frees_behaviorOf_iff (m : Machine) (function : Address) :
    (m.behaviorOf function).frees = true ↔ m.Frees function := by
  unfold behaviorOf Frees
  cases m.behaviors.get? function with
  | none => simp [Behavior.plain]
  | some behavior => simp

/-! ### What is made of calls -/

theorem Kernel.Machine.function_of_message? {m : Machine} {i : Invocation} {e : Event}
    (h : m.message? i = some e) : e.function = some i.function := by
  unfold message? at h
  repeat' split at h
  all_goals cases h
  rfl

namespace Link

/-- The event of a step, if it has one, and the behavior that its call is handled with. -/
def handledBy (l : Link) : Step → List (Event × Behavior)
  | .call _ i => (l.machine.message? i).toList.map (·, l.machine.behaviorOf i.function)
  | _ => []

/-- The events of steps one after another, with the behaviors that their calls are handled with. -/
def handled (l : Link) : List Step → List (Event × Behavior)
  | [] => []
  | s :: rest => l.handledBy s ++ (l.step s).handled rest

theorem map_fst_handled (l : Link) (steps : List Step) :
    (l.handled steps).map Prod.fst = l.messages steps := by
  induction steps generalizing l with
  | nil => rfl
  | cons s rest ih =>
    rw [handled, messages, List.map_append, ih]
    congr 1
    cases s with
    | call slot i =>
      simp only [handledBy, messagesBy]
      cases l.machine.message? i <;> rfl
    | change | read => rfl

theorem behaviors_step {l : Link} {s : Step}
    (h : ∀ other, s = .change other → other.behaviors = l.machine.behaviors) :
    (l.step s).machine.behaviors = l.machine.behaviors := by
  cases s with
  | call slot i => exact (l.machine.configuration_fire slot i).2
  | change other => exact h other rfl
  | read verbose => rfl

/-- While behaviors stay as they are, calls are handled with them. -/
theorem behavior_of_mem_handled {l : Link} {steps : List Step}
    (hkept : ∀ other, .change other ∈ steps → other.behaviors = l.machine.behaviors)
    {e : Event} {behavior : Behavior} (h : (e, behavior) ∈ l.handled steps) :
    ∃ function, e.function = some function ∧ behavior = l.machine.behaviorOf function := by
  induction steps generalizing l with
  | nil => cases h
  | cons s rest ih =>
    obtain hnow | hlater := List.mem_append.mp h
    · cases s with
      | call slot i =>
        obtain ⟨e', he', heq⟩ := List.mem_map.mp hnow
        cases heq
        exact ⟨i.function, Machine.function_of_message? (Option.mem_toList.mp he'), rfl⟩
      | change | read => cases hnow
    · have hbehaviors : (l.step s).machine.behaviors = l.machine.behaviors :=
        behaviors_step fun other hs => hkept other (hs ▸ List.mem_cons_self)
      have hkept : ∀ other, .change other ∈ rest →
          other.behaviors = (l.step s).machine.behaviors := fun other hother => by
        rw [hbehaviors]
        exact hkept other (List.mem_cons_of_mem s hother)
      obtain ⟨function, hfunction, hbehavior⟩ := ih hkept hlater
      refine ⟨function, hfunction, ?_⟩
      rw [hbehavior, Machine.behaviorOf, Machine.behaviorOf, hbehaviors]

/-- From an empty ring on, the collector has noted the first of the events. -/
theorem collector_eq_noteAll {m : Machine} (hempty : m.ring.waiting = [])
    (probes : List Resolved) (steps : List Step) :
    let start : Link := ⟨m, .start probes⟩
    let done := start.run steps
    done.collector = (Collector.start probes).noteAll
      (((start.handled steps).take done.collector.totalEvents).map fun h => .event h.1) := by
  intro start done
  have hstart : Relays (.start probes) start [] := ⟨[], [], rfl, rfl, by rw [hempty]; rfl⟩
  obtain ⟨taken, waiting, hall, hcollector, -⟩ := hstart.run steps
  rw [List.nil_append] at hall
  have hsighted (e : Event) (he : e ∈ taken) : e.sighting.isSome :=
    sighting_of_mem_messages (hall ▸ List.mem_append_left waiting he)
  have htaken : done.collector.totalEvents = taken.length := by
    rw [hcollector, ((Collector.start probes).counts_foldl_add hsighted).1]
    exact Nat.zero_add _
  have hheard : ((start.handled steps).take taken.length).map Prod.fst = taken := by
    rw [List.map_take, map_fst_handled, hall, List.take_left' rfl]
  rw [htaken, hcollector, Collector.noteAll, List.foldl_map]
  conv_lhs => rw [← hheard, List.foldl_map]
  rfl

end Link

/-- This is an event of the buffer with that identity. -/
def Event.IsOf (e : Event) (i : Identity) : Prop :=
  ∃ s, e.sighting = some s ∧ s.identity = i

theorem mem_sightings_events {heard : List (Event × Behavior)} {o : Event × Sighting} :
    o ∈ sightings (heard.map fun h => .event h.1) ↔
      ∃ h ∈ heard, h.1 = o.1 ∧ h.1.sighting = some o.2 := by
  obtain ⟨e, s⟩ := o
  simp only [sightings, List.mem_filterMap, List.mem_map, Arrival.sighted?]
  constructor
  · rintro ⟨_, ⟨h, hh, rfl⟩, hsighted⟩
    obtain ⟨_, hs, heq⟩ := Option.map_eq_some_iff.mp hsighted
    cases heq
    exact ⟨h, hh, rfl, hs⟩
  · rintro ⟨h, hh, rfl, hs⟩
    exact ⟨_, ⟨h, hh, rfl⟩, by simp only [hs, Option.map_some]⟩

namespace Link

/-- Where the program has it that functions free buffers unless they are overruled, the timelines
that end are those with an event that was handled so, or that came from an overruled function. -/
theorem timelines_freed {m : Machine} (hempty : m.ring.waiting = []) {probes : List Resolved}
    (hkernel : ∀ a, m.Frees a ↔ FreesAt probes a ∧ ¬ Overruled probes a) {steps : List Step}
    (hkept : ∀ other, .change other ∈ steps → other.behaviors = m.behaviors)
    (given : Collector.Circumstances) :
    let start : Link := ⟨m, .start probes⟩
    let collector := (start.run steps).collector
    let heard := (start.handled steps).take collector.totalEvents
    ∃ identities : List Identity, identities.Pairwise Identity.Before ∧
      (∀ i, i ∈ identities ↔ ∃ h ∈ heard, h.1.IsOf i) ∧
      List.Forall₂ (fun i t => t.origHead = i.origHead.format ∧ t.createdAt = i.timestamp ∧
          (t.freed = true ↔ ∃ h ∈ heard, h.1.IsOf i ∧
            (h.2.frees = true ∨ ∃ a, h.1.function = some a ∧ Overruled probes a)))
        identities (collector.report given).skbs := by
  intro start collector heard
  -- the collector judges by the function of an event, the program judged by its own map
  have hfrees (h : Event × Behavior) (hh : h ∈ heard) :
      (Collector.start probes).isFreeing h.1.function = true ↔
        h.2.frees = true ∨ ∃ a, h.1.function = some a ∧ Overruled probes a := by
    obtain ⟨function, hfunction, hbehavior⟩ :=
      behavior_of_mem_handled (l := start) hkept (List.mem_of_mem_take hh)
    have hhandled : h.2.frees = true ↔ FreesAt probes function ∧ ¬ Overruled probes function := by
      rw [hbehavior, ← hkernel function, ← m.frees_behaviorOf_iff]
    simp only [hfunction, Collector.isFreeing_some_iff, hhandled, Option.some.injEq,
      exists_eq_left']
    by_cases hruled : Overruled probes function
    · simp [hruled, hruled.1]
    · simp [hruled]
  have hgroups := Collector.groups_noteAll probes (heard.map fun h => .event h.1)
  rw [← show collector = _ from collector_eq_noteAll hempty probes steps] at hgroups
  obtain ⟨identities, hordered, hmem, htells⟩ := hgroups.report given
  refine ⟨identities, hordered, fun i => ?_, htells.imp fun i t ht =>
    ⟨ht.origHead, ht.createdAt, ?_⟩⟩
  · rw [hmem]
    constructor
    · rintro ⟨o, ho, hi⟩
      obtain ⟨h, hh, -, hs⟩ := mem_sightings_events.mp ho
      exact ⟨h, hh, o.2, hs, hi⟩
    · rintro ⟨h, hh, s, hs, hi⟩
      exact ⟨(h.1, s), mem_sightings_events.mpr ⟨h, hh, rfl, hs⟩, hi⟩
  · simp only [ht.freed, ← Collector.isFreeing_iff]
    constructor
    · rintro ⟨o, ho, hfreeing⟩
      obtain ⟨hseen, hi⟩ := List.mem_filter.mp ho
      obtain ⟨h, hh, hsame, hs⟩ := mem_sightings_events.mp hseen
      rw [← hsame] at hfreeing
      exact ⟨h, hh, ⟨o.2, hs, of_decide_eq_true hi⟩, (hfrees h hh).mp hfreeing⟩
    · rintro ⟨h, hh, ⟨s, hs, hi⟩, hfreeing⟩
      have hseen : (h.1, s) ∈ ofIdentity i _ :=
        List.mem_filter.mpr ⟨mem_sightings_events.mpr ⟨h, hh, rfl, hs⟩, decide_eq_true hi⟩
      exact ⟨(h.1, s), hseen, (hfrees h hh).mpr hfreeing⟩

end Link

/-- **Where the report and the kernel have buffers freed.** The collector takes a function for
freeing exactly if the set has a freeing probe at its address. All functions that free buffers for
the kernel program are among them, and the others are those where a freeing probe is overruled. So a
buffer is reported as freed exactly if an event of it that was read was handled as freeing, or came
from such a function. -/
theorem freed_told {set : ProbeSet} (hset : set.check = .ok ()) (symbols : Symbols) {m : Machine}
    (hpositions : m.probes = .empty maxProbes) (hbehaviors : m.behaviors = .empty maxProbes)
    (hempty : m.ring.waiting = []) :
    let probes := set.resolve symbols
    ∃ told, m.configure? probes = some told ∧
      (∀ a, (Collector.start probes).isFreeing (some a) = true ↔
        ∃ spec ∈ set.probes, symbols.addressOf? spec.symbol = some a ∧ spec.free = true) ∧
      (∀ a, told.Frees a → (Collector.start probes).isFreeing (some a) = true) ∧
      (∀ a, ((Collector.start probes).isFreeing (some a) = true ↔ told.Frees a) ↔
        ¬ Overruled probes a) ∧
      ∀ (steps : List Link.Step) (given : Collector.Circumstances),
        (∀ other, .change other ∈ steps → other.behaviors = told.behaviors) →
        let start : Link := ⟨told, .start probes⟩
        let collector := (start.run steps).collector
        let heard := (start.handled steps).take collector.totalEvents
        ∃ identities : List Identity, identities.Pairwise Identity.Before ∧
          (∀ i, i ∈ identities ↔ ∃ h ∈ heard, h.1.IsOf i) ∧
          List.Forall₂ (fun i t => t.origHead = i.origHead.format ∧ t.createdAt = i.timestamp ∧
              (t.freed = true ↔ ∃ h ∈ heard, h.1.IsOf i ∧
                (h.2.frees = true ∨ ∃ a, h.1.function = some a ∧ Overruled probes a)))
            identities (collector.report given).skbs := by
  intro probes
  obtain ⟨-, hfew, -⟩ := set.check_eq_ok_iff.mp hset
  obtain ⟨positions, behaviors, htold, -, hget⟩ := Machine.exists_configure? hpositions hbehaviors
    (Nat.le_trans (set.length_resolve_le symbols) hfew)
  have hkernel (a : Address) :
      Machine.Frees { m with probes := positions, behaviors := behaviors } a ↔
        FreesAt probes a ∧ ¬ Overruled probes a := by
    rw [← exists_isLast_frees_iff]
    simp only [Machine.Frees, hget, Option.map_eq_some_iff, lastAt?_eq_some_iff]
    constructor
    · rintro ⟨_, ⟨p, ⟨haddress, hlast⟩, rfl⟩, hfrees⟩
      exact ⟨p, hlast, haddress, p.frees_getD ▸ hfrees⟩
    · rintro ⟨p, hlast, haddress, hfrees⟩
      exact ⟨_, ⟨p, ⟨haddress, hlast⟩, rfl⟩, p.frees_getD.trans hfrees⟩
  have hcollector (a : Address) := Collector.isFreeing_some_iff probes a
  refine ⟨_, htold, fun a => ?_, fun a hfrees => ?_, fun a => ?_, fun steps given hkept => ?_⟩
  · rw [hcollector, freesAt_resolve_iff]
  · exact (hcollector a).mpr ((hkernel a).mp hfrees).1
  · rw [hcollector, hkernel]
    constructor
    · exact fun hagree hruled => (hagree.mp hruled.1).2 hruled
    · exact fun hruling => ⟨fun hany => ⟨hany, hruling⟩, And.left⟩
  · refine Link.timelines_freed ?_ hkernel hkept given
    exact hempty

/-- One function under two names: under the first it frees buffers, under the second it replaces
their heads. -/
def released : ProbeSet where
  probes := [{ Spec.generic "release" 0 with free := true },
    { Spec.generic "refill" 0 with invHead := true }]

def underTwoNames : Symbols :=
  .ofEntries [⟨"release", 0x10⟩, ⟨"refill", 0x10⟩]

/-- A machine where one buffer has a head. -/
def withHead : Machine :=
  (Machine.blank 4).expose [(0x10C0, 0x22)]

/-- The machine once it is told of both probes. -/
def toldTwice : Machine :=
  (withHead.configure? (released.resolve underTwoNames)).getD withHead

theorem configure?_released :
    withHead.configure? (released.resolve underTwoNames) = some toldTwice := by
  obtain ⟨told, htold⟩ : ∃ told, withHead.configure? (released.resolve underTwoNames) = some told :=
    Option.isSome_iff_exists.mp (by decide +kernel)
  rw [toldTwice, htold, Option.getD_some]

/-- The buffer is given to the function, and the event is read. -/
def release : List Link.Step :=
  [.call .blank ⟨0x10, 100, [0x1000]⟩, .read false]

/-- The buffer ends in the report, for its event came from an overruled function. -/
theorem released_told :
    let probes := released.resolve underTwoNames
    let start : Link := ⟨toldTwice, .start probes⟩
    released.check = .ok () ∧ withHead.configure? probes = some toldTwice ∧
      (Collector.start probes).isFreeing (some 0x10) = true ∧ ¬ toldTwice.Frees 0x10 ∧
      ∃ identities : List Identity, List.Forall₂ (fun i t => t.createdAt = i.timestamp ∧
        t.freed = true) identities ((start.run release).collector.report ⟨"", 0, ∅, 0⟩).skbs := by
  intro probes start
  have hset : released.check = .ok () := by decide +kernel
  have hlast : lastAt? (special probes) 0x10 =
      some ⟨"refill", 0x10, ⟨0, unavailable⟩, some (.ofFlags false true)⟩ := by
    decide +kernel
  have hcalled : ∀ h ∈ start.handled release, h.1.function = some 0x10 := by
    decide +kernel
  obtain ⟨told, htold, -, -, hagree, hrun⟩ :=
    freed_told hset underTwoNames (m := withHead) rfl rfl rfl
  obtain rfl : toldTwice = told := Option.some.inj (configure?_released.symm.trans htold)
  have hfreeing : (Collector.start probes).isFreeing (some 0x10) = true := by decide +kernel
  have hruled : Overruled probes 0x10 :=
    ⟨(Collector.isFreeing_some_iff ..).mp hfreeing, _, (lastAt?_eq_some_iff.mp hlast).2, rfl, rfl⟩
  obtain ⟨identities, -, hmem, htimelines⟩ := hrun release ⟨"", 0, ∅, 0⟩ (by simp [release])
  refine ⟨hset, htold, hfreeing, fun hfrees => (hagree 0x10).mp ⟨fun _ => hfrees, fun _ => hfreeing⟩
    hruled, identities, ?_⟩
  refine ((List.forall₂_and_left _ _).mpr ⟨fun i hi => (hmem i).mp hi, htimelines⟩).imp ?_
  rintro i t ⟨⟨h, hh, hof⟩, -, hdate, hfreed⟩
  have hfunction := hcalled h (List.mem_of_mem_take hh)
  exact ⟨hdate, hfreed.mpr ⟨h, hh, hof, .inr ⟨0x10, hfunction, hruled⟩⟩⟩

/-- The report has the buffer freed, though no call was handled as freeing, and the buffer is still
tracked. -/
theorem released_not_handled :
    let probes := released.resolve underTwoNames
    let start : Link := ⟨toldTwice, .start probes⟩
    released.check = .ok () ∧ withHead.configure? probes = some toldTwice ∧
      (Collector.start probes).isFreeing (some 0x10) = true ∧
      toldTwice.behaviors.get? 0x10 = some (.ofFlags false true) ∧
      (start.handled release).map (fun h => (h.1.sighting.map (·.identity), h.2.frees)) =
        [(some ⟨0x22, 100⟩, false)] ∧
      ((start.run release).collector.report ⟨"", 0, ∅, 0⟩).skbs.map
          (fun t => (t.origHead, t.createdAt, t.freed)) =
        [("0x0000000000000022", 100, true)] ∧
      (start.run release).machine.tracked.identityAt 0x22 = some ⟨0x22, 100⟩ := by
  intro probes start
  exact ⟨by decide +kernel, configure?_released, by decide +kernel, by decide +kernel,
    by decide +kernel, by decide +kernel, by decide +kernel⟩

end Lifeline
