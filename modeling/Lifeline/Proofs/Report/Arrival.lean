import Lifeline.Proofs.Report.Grouping
import Mathlib.Data.List.Nodup

/-! Reports do not depend on the order of arrival.

Processors write their events at their own pace, so what arrives may be in any order. The numbers
of a report come from counting, where order does not matter (`Collector.Tallies`), and each of its
timelines from the observations of one identity, which are only moved about. What is left of the
order of arrival is the order of addresses, and that of entries of one time
(`Collector.Tells.alike`). `report_of_perm` has all of it. -/
namespace Lifeline

open Report

theorem Identity.Before.asymm {i j : Identity} (h : i.Before j) : ¬ j.Before i := by
  rintro hback
  simp only [Before, UInt64.lt_iff_toNat_lt] at h hback
  rcases h with hij | ⟨hij, hhead⟩ <;> rcases hback with hji | ⟨hji, hhead'⟩
  · omega
  · rw [hji] at hij
    omega
  · rw [hij] at hji
    omega
  · omega

/-- Identities in order are told by what is among them. -/
theorem Identity.eq_of_pairwise_before {is js : List Identity} (his : is.Pairwise Before)
    (hjs : js.Pairwise Before) (h : ∀ i, i ∈ is ↔ i ∈ js) : is = js := by
  have hne {i j : Identity} (hbefore : i.Before j) : i ≠ j := fun heq =>
    (heq ▸ hbefore).asymm (heq ▸ hbefore)
  have hperm : is.Perm js := (List.perm_ext_iff_of_nodup (his.imp hne) (hjs.imp hne)).mpr h
  exact hperm.eq_of_pairwise (fun _ _ _ _ hij hji => absurd hji hij.asymm) his hjs

/-! ### Timelines -/

/-- Timelines of one buffer that differ in the order of addresses, and of entries of one time. -/
structure Report.Timeline.Alike (t u : Timeline) : Prop where
  origHead : t.origHead = u.origHead
  createdAt : t.createdAt = u.createdAt
  lastSeen : t.lastSeen = u.lastSeen
  freed : t.freed = u.freed
  skbAddresses : t.skbAddresses.Perm u.skbAddresses
  times : t.events.map (·.timestamp) = u.events.map (·.timestamp)
  events : ∀ time : Nanos,
    (t.events.filter (·.timestamp = time)).Perm (u.events.filter (·.timestamp = time))
  events_eq : (t.events.map (·.timestamp)).Nodup → t.events = u.events

namespace Collector

variable {probes : List Probe.Resolved} {i : Identity} {seen seen' : List (Event × Sighting)}
  {t u : Timeline}

theorem Tells.lastSeen_le (h : Tells probes i seen t) (h' : Tells probes i seen' u)
    (hseen : seen.Perm seen') : t.lastSeen ≤ u.lastSeen := by
  obtain ⟨o, ho, hlast⟩ := h.lastSeen_mem
  exact hlast ▸ h'.lastSeen_ge o (hseen.mem_iff.mp ho)

theorem Tells.alike (h : Tells probes i seen t) (h' : Tells probes i seen' u)
    (hseen : seen.Perm seen') : t.Alike u := by
  have hevents : t.events.Perm u.events :=
    h.events.trans ((hseen.map _).trans h'.events.symm)
  refine ⟨h.origHead.trans h'.origHead.symm, h.createdAt.trans h'.createdAt.symm, ?_, ?_, ?_, ?_,
    fun time => hevents.filter _, fun hnodup => ?_⟩
  · exact UInt64.le_antisymm (h.lastSeen_le h' hseen) (h'.lastSeen_le h hseen.symm)
  · rw [Bool.eq_iff_iff, h.freed, h'.freed]
    simp only [hseen.mem_iff]
  · rw [h.skbAddresses, h'.skbAddresses]
    exact (perm_eraseDups (hseen.map _)).map _
  · exact (hevents.map _).eq_of_pairwise (fun _ _ _ _ => UInt64.le_antisymm)
      (List.pairwise_map.mpr h.inOrder) (List.pairwise_map.mpr h'.inOrder)
  · -- where no two times are equal, the order of times leaves no choice
    refine hevents.eq_of_pairwise (fun a b ha hb hab hba => ?_) h.inOrder h'.inOrder
    exact List.inj_on_of_nodup_map hnodup ha (hevents.mem_iff.mpr hb) (UInt64.le_antisymm hab hba)

theorem forall₂_alike {identities : List Identity} {ts us : List Timeline}
    {of of' : Identity → List (Event × Sighting)} (hof : ∀ i, (of i).Perm (of' i))
    (h : List.Forall₂ (fun i t => Tells probes i (of i) t) identities ts)
    (h' : List.Forall₂ (fun i t => Tells probes i (of' i) t) identities us) :
    List.Forall₂ Timeline.Alike ts us := by
  induction h generalizing us with
  | nil =>
    cases h'
    exact .nil
  | cons ht _ ih =>
    cases h' with
    | cons hu hrest => exact .cons (ht.alike hu (hof _)) (ih hrest)

theorem Groups.alike {c d : Collector} (h : Groups probes seen c) (h' : Groups probes seen' d)
    (hseen : seen.Perm seen') (given given' : Circumstances) :
    List.Forall₂ Timeline.Alike (c.report given).skbs (d.report given').skbs := by
  obtain ⟨identities, hordered, hmem, htells⟩ := h.report given
  obtain ⟨identities', hordered', hmem', htells'⟩ := h'.report given'
  obtain rfl : identities = identities' :=
    Identity.eq_of_pairwise_before hordered hordered' fun i => by
      simp only [hmem, hmem', hseen.mem_iff]
  exact forall₂_alike (fun i => hseen.filter _) htells htells'

/-! ### Numbers -/

theorem count_right_comm {κ : Type} [Ord κ] [Std.TransOrd κ] [Std.LawfulEqOrd κ]
    (counts : Std.ExtTreeMap κ Nat compare) (a b : κ) :
    count (count counts a) b = count (count counts b) a := by
  refine Std.ExtTreeMap.ext_getElem? fun k => ?_
  simp only [count, Std.ExtTreeMap.getElem?_insert, Std.ExtTreeMap.getD_insert,
    Std.LawfulEqOrd.compare_eq_iff_eq]
  by_cases hab : a = b
  · subst hab
    rfl
  · by_cases hak : a = k <;> by_cases hbk : b = k <;> simp_all

/-- The events among what arrives. -/
def eventsOf (arrivals : List Arrival) : List Event :=
  arrivals.filterMap fun
    | .event e => some e
    | .invalid => none

/-- The numbers of a collector count what arrived. -/
structure Tallies (probes : List Probe.Resolved) (arrivals : List Arrival) (c : Collector) :
    Prop where
  probes_eq : c.probes = probes
  totalEvents : c.totalEvents = (eventsOf arrivals).length
  untrackedEvents : c.untrackedEvents = ((eventsOf arrivals).filter (·.sighting = none)).length
  invalidEvents : c.invalidEvents = (arrivals.filter (· = .invalid)).length
  eventsByFunction : c.eventsByFunction =
    ((eventsOf arrivals).map fun e => Probe.nameOf probes e.function).foldl count ∅
  dropsByReason : c.dropsByReason =
    ((sightings arrivals).filterMap fun o => dropReason? o.2).foldl count ∅

theorem tallies_start (probes : List Probe.Resolved) : Tallies probes [] (start probes) :=
  ⟨rfl, rfl, rfl, rfl, rfl, rfl⟩

variable {arrivals : List Arrival} {c : Collector}

theorem Tallies.note (h : Tallies probes arrivals c) (a : Arrival) :
    Tallies probes (arrivals ++ [a]) (c.note a) := by
  have hsightings : sightings (arrivals ++ [a]) = sightings arrivals ++ a.sighted?.toList := by
    rw [sightings_append, sightings_singleton]
  cases a with
  | invalid =>
    have hevents : eventsOf (arrivals ++ [.invalid]) = eventsOf arrivals := by simp [eventsOf]
    refine ⟨h.probes_eq, ?_, ?_, ?_, ?_, ?_⟩
    · exact hevents ▸ h.totalEvents
    · exact hevents ▸ h.untrackedEvents
    · simp [Collector.note, addInvalid, h.invalidEvents]
    · exact hevents ▸ h.eventsByFunction
    · rw [hsightings]
      simpa [Arrival.sighted?, Collector.note, addInvalid] using h.dropsByReason
  | event e =>
    have hevents : eventsOf (arrivals ++ [.event e]) = eventsOf arrivals ++ [e] := by
      simp [eventsOf]
    have hname := functionName_eq_nameOf h.probes_eq e.function
    simp only [Collector.note, add]
    cases hs : e.sighting with
    | none =>
      refine ⟨h.probes_eq, ?_, ?_, ?_, ?_, ?_⟩
      · simp [hevents, h.totalEvents]
      · simp [hevents, h.untrackedEvents, hs]
      · simpa using h.invalidEvents
      · simp [hevents, h.eventsByFunction, hname]
      · rw [hsightings]
        simpa [Arrival.sighted?, hs] using h.dropsByReason
    | some s =>
      refine ⟨h.probes_eq, ?_, ?_, ?_, ?_, ?_⟩
      · simp [file, hevents, h.totalEvents]
      · simpa [file, hevents, hs] using h.untrackedEvents
      · simpa [file] using h.invalidEvents
      · simp [file, hevents, h.eventsByFunction, hname]
      · rw [hsightings]
        cases hreason : dropReason? s <;>
          simp [file, Arrival.sighted?, hs, h.dropsByReason, hreason]

theorem Tallies.noteAll {before : List Arrival} (h : Tallies probes before c)
    (arrivals : List Arrival) : Tallies probes (before ++ arrivals) (c.noteAll arrivals) := by
  induction arrivals generalizing before c with
  | nil => rwa [List.append_nil]
  | cons a rest ih =>
    rw [← List.singleton_append, ← List.append_assoc]
    exact ih (h.note a)

theorem tallies_noteAll (probes : List Probe.Resolved) (arrivals : List Arrival) :
    Tallies probes arrivals ((start probes).noteAll arrivals) :=
  (tallies_start probes).noteAll arrivals

/-- Counting comes to the same in any order. -/
theorem foldl_count_of_perm {κ : Type} [Ord κ] [Std.TransOrd κ] [Std.LawfulEqOrd κ] {xs ys : List κ}
    (h : xs.Perm ys) (counts : Std.ExtTreeMap κ Nat compare) :
    xs.foldl count counts = ys.foldl count counts :=
  h.foldl_eq' (fun x _ y _ counts => count_right_comm counts x y) counts

/-- The numbers of a summary that count events. -/
theorem Tallies.eq_of_perm {arrivals' : List Arrival} {d : Collector}
    (h : Tallies probes arrivals c) (h' : Tallies probes arrivals' d) (harrivals : arrivals.Perm arrivals') :
    c.totalEvents = d.totalEvents ∧ c.untrackedEvents = d.untrackedEvents ∧
      c.invalidEvents = d.invalidEvents ∧ c.eventsByFunction = d.eventsByFunction ∧
      c.dropsByReason = d.dropsByReason := by
  have hevents : (eventsOf arrivals).Perm (eventsOf arrivals') := harrivals.filterMap _
  have hsightings : (sightings arrivals).Perm (sightings arrivals') := harrivals.filterMap _
  refine ⟨?_, ?_, ?_, ?_, ?_⟩
  · rw [h.totalEvents, h'.totalEvents, hevents.length_eq]
  · rw [h.untrackedEvents, h'.untrackedEvents, (hevents.filter _).length_eq]
  · rw [h.invalidEvents, h'.invalidEvents, (harrivals.filter _).length_eq]
  · rw [h.eventsByFunction, h'.eventsByFunction]
    exact foldl_count_of_perm (hevents.map _) ∅
  · rw [h.dropsByReason, h'.dropsByReason]
    exact foldl_count_of_perm (hsightings.filterMap _) ∅

/-- The other numbers are read off the timelines. -/
theorem skbCount_eq (c : Collector) (given : Circumstances) :
    c.skbCount = (c.report given).skbs.length := by
  rw [skbCount, report, List.length_map, Std.ExtTreeMap.length_toList]

theorem completedCount_eq (c : Collector) (given : Circumstances) :
    c.completedCount = ((c.report given).skbs.map (·.freed)).count true := by
  rw [completedCount, report, List.map_map, List.count, List.countP_map,
    List.countP_eq_length_filter]
  congr 2
  funext entry
  exact (beq_true entry.2.freed).symm

/-- **Reports do not depend on the order of arrival**: from the same arrivals in another order the
numbers are the same, and so are the timelines up to the order of addresses and of entries of one
time. -/
theorem report_of_perm {arrivals arrivals' : List Arrival} (h : arrivals.Perm arrivals')
    (probes : List Probe.Resolved) (given : Circumstances) (madeAt : String) :
    let report := ((start probes).noteAll arrivals).report given
    let report' := ((start probes).noteAll arrivals').report { given with timestamp := madeAt }
    report.summary = report'.summary ∧ report.durationSeconds = report'.durationSeconds ∧
      List.Forall₂ Timeline.Alike report.skbs report'.skbs := by
  intro report report'
  have hskbs : List.Forall₂ Timeline.Alike report.skbs report'.skbs :=
    (groups_noteAll probes arrivals).alike (groups_noteAll probes arrivals') (h.filterMap _) _ _
  obtain ⟨htotal, huntracked, hinvalid, hfunctions, hdrops⟩ :=
    (tallies_noteAll probes arrivals).eq_of_perm (tallies_noteAll probes arrivals') h
  have hcount : ((start probes).noteAll arrivals).skbCount =
      ((start probes).noteAll arrivals').skbCount := by
    rw [skbCount_eq _ given, skbCount_eq _ { given with timestamp := madeAt }]
    exact hskbs.length_eq
  have hfreed : List.Forall₂ (· = ·) (report.skbs.map (·.freed)) (report'.skbs.map (·.freed)) := by
    rw [List.forall₂_map_left_iff, List.forall₂_map_right_iff]
    exact hskbs.imp fun _ _ h => h.freed
  have hcompleted : ((start probes).noteAll arrivals).completedCount =
      ((start probes).noteAll arrivals').completedCount := by
    rw [completedCount_eq _ given, completedCount_eq _ { given with timestamp := madeAt }]
    rw [List.forall₂_eq_eq_eq] at hfreed
    exact congrArg _ hfreed
  refine ⟨?_, rfl, hskbs⟩
  show summary _ given = summary _ { given with timestamp := madeAt }
  simp only [summary, htotal, huntracked, hinvalid, hfunctions, hdrops, hcount, hcompleted]

/-- A buffer at two addresses, of which one came to be known too late; and a fault. -/
def disorder : List Arrival :=
  [.event ⟨120, some 0x10, some ⟨⟨0x22, 100⟩, 0x2000, 2⟩⟩, .invalid,
   .event ⟨100, some 0x20, some ⟨⟨0x22, 100⟩, 0x1000, 0⟩⟩,
   .event ⟨120, none, some ⟨⟨0x22, 100⟩, 0x1000, 0⟩⟩]

theorem disorder_reversed :
    let report := ((start []).noteAll disorder).report ⟨"", 1, ∅, 0⟩
    let report' := ((start []).noteAll disorder.reverse).report ⟨"later", 1, ∅, 0⟩
    disorder.Perm disorder.reverse ∧ report.summary = report'.summary ∧
      report.skbs.map (·.skbAddresses) = [["0x0000000000002000", "0x0000000000001000"]] ∧
      report'.skbs.map (·.skbAddresses) = [["0x0000000000001000", "0x0000000000002000"]] ∧
      List.Forall₂ Timeline.Alike report.skbs report'.skbs := by
  intro report report'
  have hperm : disorder.Perm disorder.reverse := (List.reverse_perm _).symm
  obtain ⟨hsummary, -, hskbs⟩ := report_of_perm hperm [] ⟨"", 1, ∅, 0⟩ "later"
  exact ⟨hperm, hsummary, by decide +kernel, by decide +kernel, hskbs⟩

end Collector

end Lifeline
