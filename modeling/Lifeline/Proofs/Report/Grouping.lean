import Lifeline.Proofs.Basics
import Lifeline.Proofs.Report.Chronology
import Mathlib.Data.List.Forall2

/-! The timelines of a report are its events, grouped.

A collector is given events and faults as they arrive, which is what raw events come to
(`Collector.receiveAll_eq_noteAll`). Along any of these it keeps, for each identity, what the
observations of that identity come to (`Collector.Groups`), so nothing is lost and nothing gets into
the timeline of another buffer. `report_groups_arrivals` says what the report makes of it. -/
namespace Lifeline

open Probe

/-- Whether a probe is told to free buffers. -/
def Probe.Resolved.frees (p : Resolved) : Bool :=
  p.behavior.any Behavior.frees

/-- What a function is called in a report: by the symbol of the last of the probes at it, else by
its address. -/
def Probe.nameOf (probes : List Resolved) : Option Address → String
  | none => "unknown"
  | some address =>
    match (probes.filter (·.address = address)).getLast? with
    | some p => p.symbol
    | none => address.format

/-- One of the probes at an address frees buffers. -/
def Probe.FreesAt (probes : List Resolved) (address : Address) : Prop :=
  ∃ p ∈ probes, p.address = address ∧ p.frees = true

/-- What arrives at a collector. -/
inductive Arrival where
  | event (e : Event)
  /-- An event that cannot be decoded. -/
  | invalid
  deriving DecidableEq

/-- The buffer of an arrival, with its event. -/
def Arrival.sighted? : Arrival → Option (Event × Sighting)
  | .event e => e.sighting.map (e, ·)
  | .invalid => none

/-- All that was seen of buffers, in the order of arrival. -/
def sightings (arrivals : List Arrival) : List (Event × Sighting) :=
  arrivals.filterMap Arrival.sighted?

theorem sightings_append (before after : List Arrival) :
    sightings (before ++ after) = sightings before ++ sightings after :=
  List.filterMap_append

theorem sightings_singleton (a : Arrival) : sightings [a] = a.sighted?.toList := by
  rw [sightings, List.filterMap_cons]
  cases a.sighted? <;> rfl

/-- What was seen of one buffer. -/
def ofIdentity (i : Identity) (seen : List (Event × Sighting)) : List (Event × Sighting) :=
  seen.filter (·.2.identity = i)

theorem ofIdentity_concat (i : Identity) (seen : List (Event × Sighting)) (o : Event × Sighting) :
    ofIdentity i (seen ++ [o]) =
      if o.2.identity = i then ofIdentity i seen ++ [o] else ofIdentity i seen := by
  by_cases h : o.2.identity = i <;> simp [ofIdentity, h]

/-- First seen earlier, or at the same time with a smaller head. -/
def Identity.Before (i j : Identity) : Prop :=
  i.timestamp < j.timestamp ∨ i.timestamp = j.timestamp ∧ i.origHead < j.origHead

theorem Identity.compare_eq_lt_iff (i j : Identity) : i.compare j = .lt ↔ i.Before j := by
  simp only [compare, compareLex, compareOn, Ordering.then_eq_lt, Std.compare_eq_lt,
    Std.LawfulEqOrd.compare_eq_iff_eq, Before]

namespace Collector

/-! ### Arrivals -/

/-- Takes what arrives. -/
def note (c : Collector) : Arrival → Collector
  | .event e => c.add e
  | .invalid => c.addInvalid

/-- Takes what arrives one after another. -/
def noteAll (c : Collector) (arrivals : List Arrival) : Collector :=
  arrivals.foldl note c

/-- How bytes arrive. -/
def arrivalOf (bytes : List UInt8) : Arrival :=
  match (Event.decode bytes).result with
  | .ok e => .event e
  | .error _ => .invalid

/-- What a collector does with raw events is to take what they decode into. -/
theorem receiveAll_eq_noteAll (verbose : Bool) (c : Collector) (received : List (List UInt8)) :
    (c.receiveAll verbose received).2 = c.noteAll (received.map arrivalOf) := by
  induction received generalizing c with
  | nil => rfl
  | cons bytes rest ih =>
    have hnow : (c.receive verbose bytes).2 = c.note (arrivalOf bytes) := by
      simp only [receive, arrivalOf]
      cases (Event.decode bytes).result <;> rfl
    rw [receiveAll, List.map_cons, noteAll, List.foldl_cons, ← hnow]
    exact ih _

/-- Searching the probes from the end finds the last of those at an address. -/
theorem functionName_eq_nameOf {c : Collector} {probes : List Resolved}
    (h : c.probes = probes) (function : Option Address) :
    c.functionName function = nameOf probes function := by
  subst h
  cases function with
  | none => rfl
  | some address =>
    have hlast : c.probes.reverse.find? (·.address == address) =
        (c.probes.filter (·.address = address)).getLast? :=
      calc c.probes.reverse.find? (·.address == address)
        _ = (c.probes.reverse.filter (·.address = address)).head? := List.head?_filter.symm
        _ = (c.probes.filter (·.address = address)).getLast? := by
          rw [List.filter_reverse, List.head?_reverse]
    cases hfound : (c.probes.filter (·.address = address)).getLast? with
    | none => simp only [functionName, nameOf, hlast, hfound]
    | some p => simp only [functionName, nameOf, hlast, hfound]

theorem isFreeing_eq_start {c : Collector} {probes : List Resolved} (h : c.probes = probes)
    (function : Option Address) : c.isFreeing function = (start probes).isFreeing function := by
  subst h
  rfl

/-! ### One lifetime -/

/-- The entry of an observation in a report. -/
def entryOf (probes : List Resolved) (o : Event × Sighting) : Report.Entry where
  timestamp := o.1.timestamp
  function := nameOf probes o.1.function
  skb := o.2.skb.format
  dropReason := if o.2.dropReason = 0 then none else some o.2.dropReason

/-- A lifetime is what these observations come to, in the order of their arrival. -/
structure Sums (probes : List Resolved) (seen : List (Event × Sighting)) (l : Lifetime) :
    Prop where
  entries : l.entries.reverse = seen.map (entryOf probes)
  skbs : l.skbs = (seen.map (·.2.skb)).eraseDups
  freed : l.freed = seen.any fun o => (start probes).isFreeing o.1.function
  lastSeen_ge : ∀ o ∈ seen, o.1.timestamp ≤ l.lastSeen
  lastSeen_mem : seen = [] ∧ l.lastSeen = 0 ∨ ∃ o ∈ seen, o.1.timestamp = l.lastSeen

variable {probes : List Resolved}

theorem sums_blank : Sums probes [] .blank where
  entries := rfl
  skbs := rfl
  freed := rfl
  lastSeen_ge _ h := nomatch h
  lastSeen_mem := .inl ⟨rfl, rfl⟩

theorem Sums.extend {seen : List (Event × Sighting)} {l : Lifetime} (h : Sums probes seen l)
    (e : Event) (s : Sighting) :
    Sums probes (seen ++ [(e, s)]) (Collector.extend (nameOf probes e.function)
      ((start probes).isFreeing e.function) e.timestamp s l) := by
  obtain ⟨hbefore, hnow⟩ := lastSeen_extend (nameOf probes e.function)
    ((start probes).isFreeing e.function) e.timestamp s l
  refine ⟨?_, ?_, ?_, fun o ho => ?_, .inr ?_⟩
  · simp only [Collector.extend, List.reverse_cons, h.entries, List.map_append, List.map_singleton]
    rfl
  · rw [List.map_append, List.map_singleton, eraseDups_concat, ← h.skbs]
    rfl
  · simp [Collector.extend, h.freed]
  · rcases List.mem_append.mp ho with hearlier | hlatest
    · exact UInt64.le_trans (h.lastSeen_ge o hearlier) hbefore
    · obtain rfl := List.mem_singleton.mp hlatest
      exact hnow
  · have hmax : max l.lastSeen e.timestamp =
        if l.lastSeen ≤ e.timestamp then e.timestamp else l.lastSeen := rfl
    simp only [Collector.extend, hmax]
    split
    · exact ⟨_, List.mem_append_right _ (List.mem_singleton_self _), rfl⟩
    · rename_i hearlier
      -- no time is earlier than that of a blank lifetime
      obtain ⟨-, hzero⟩ | ⟨o, ho, hlast⟩ := h.lastSeen_mem
      · exact absurd (hzero ▸ UInt64.zero_le) hearlier
      · exact ⟨o, List.mem_append_left _ ho, hlast⟩

/-! ### All lifetimes -/

/-- Under each identity lies what its observations come to. -/
structure Groups (probes : List Resolved) (seen : List (Event × Sighting)) (c : Collector) :
    Prop where
  probes_eq : c.probes = probes
  sums : ∀ i, Sums probes (ofIdentity i seen) (c.lifetimes.getD i .blank)
  mem_iff : ∀ i, i ∈ c.lifetimes ↔ ofIdentity i seen ≠ []

theorem groups_start (probes : List Resolved) : Groups probes [] (start probes) where
  probes_eq := rfl
  sums i := by
    rw [start, Std.ExtTreeMap.getD_empty]
    exact sums_blank
  mem_iff i := by simp [start, ofIdentity]

variable {seen : List (Event × Sighting)} {c : Collector}

theorem Groups.file (h : Groups probes seen c) (e : Event) (s : Sighting) :
    Groups probes (seen ++ [(e, s)]) (c.file e s) := by
  have hcompare (i : Identity) : s.identity.compare i = .eq ↔ s.identity = i :=
    Std.LawfulEqCmp.compare_eq_iff_eq
  refine ⟨h.probes_eq, fun i => ?_, fun i => ?_⟩
  · have hat : (c.file e s).lifetimes.getD i .blank = _ := Std.ExtTreeMap.getD_insert
    rw [hat, ofIdentity_concat]
    simp only [hcompare]
    split
    · rename_i hsame
      subst hsame
      rw [functionName_eq_nameOf h.probes_eq, isFreeing_eq_start h.probes_eq]
      exact (h.sums s.identity).extend e s
    · exact h.sums i
  · have hat : i ∈ (c.file e s).lifetimes ↔ _ := Std.ExtTreeMap.mem_insert
    rw [hat, hcompare, h.mem_iff, ofIdentity_concat]
    split <;> simp_all

theorem Groups.note (h : Groups probes seen c) (a : Arrival) :
    Groups probes (seen ++ a.sighted?.toList) (c.note a) := by
  have hunseen {d : Collector} (hprobes : d.probes = c.probes)
      (hlifetimes : d.lifetimes = c.lifetimes) : Groups probes (seen ++ []) d := by
    rw [List.append_nil]
    exact ⟨hprobes.trans h.probes_eq, hlifetimes ▸ h.sums, hlifetimes ▸ h.mem_iff⟩
  cases a with
  | invalid => exact hunseen rfl rfl
  | event e =>
    simp only [Arrival.sighted?, Collector.note, Collector.add]
    cases e.sighting with
    | none => exact hunseen rfl rfl
    | some s =>
      refine Groups.file ?_ e s
      exact ⟨h.probes_eq, h.sums, h.mem_iff⟩

theorem Groups.noteAll (h : Groups probes seen c) (arrivals : List Arrival) :
    Groups probes (seen ++ sightings arrivals) (c.noteAll arrivals) := by
  induction arrivals generalizing seen c with
  | nil => rwa [sightings, List.filterMap_nil, List.append_nil]
  | cons a rest ih =>
    rw [← List.singleton_append, sightings_append, sightings_singleton, ← List.append_assoc]
    exact ih (h.note a)

theorem groups_noteAll (probes : List Resolved) (arrivals : List Arrival) :
    Groups probes (sightings arrivals) ((start probes).noteAll arrivals) := by
  simpa using (groups_start probes).noteAll arrivals

/-! ### Timelines -/

theorem earlier_trans (a b c : Report.Entry) (hab : decide (a.timestamp ≤ b.timestamp) = true)
    (hbc : decide (b.timestamp ≤ c.timestamp) = true) :
    decide (a.timestamp ≤ c.timestamp) = true :=
  decide_eq_true (UInt64.le_trans (of_decide_eq_true hab) (of_decide_eq_true hbc))

theorem earlier_total (a b : Report.Entry) :
    (decide (a.timestamp ≤ b.timestamp) || decide (b.timestamp ≤ a.timestamp)) = true := by
  simpa using UInt64.le_total a.timestamp b.timestamp

theorem pairwise_inOrder (entries : List Report.Entry) :
    (inOrder entries).Pairwise (·.timestamp ≤ ·.timestamp) :=
  (List.pairwise_mergeSort earlier_trans earlier_total entries).imp of_decide_eq_true

theorem inOrder_perm (entries : List Report.Entry) : (inOrder entries).Perm entries :=
  List.mergeSort_perm ..

/-- Entries of one time stay in their order. -/
theorem filter_inOrder (entries : List Report.Entry) (time : Nanos) :
    (inOrder entries).filter (·.timestamp = time) = entries.filter (·.timestamp = time) := by
  have hsorted : (entries.filter (·.timestamp = time)).Pairwise
      fun a b => decide (a.timestamp ≤ b.timestamp) = true :=
    List.pairwise_filter.mpr <| List.pairwise_of_forall fun a b ha hb => by
      rw [of_decide_eq_true ha, of_decide_eq_true hb]
      exact decide_eq_true (UInt64.le_refl _)
  -- entries of one time are in order already, so sorting keeps them as a sublist, and adds no other
  have hsublist := List.sublist_mergeSort earlier_trans earlier_total hsorted List.filter_sublist
  have hkept := hsublist.filter (·.timestamp = time)
  simp only [List.filter_filter, Bool.and_self] at hkept
  exact (hkept.eq_of_length ((inOrder_perm entries).filter _).length_eq.symm).symm

/-- What a timeline tells of a buffer whose observations are given in the order of their
arrival. -/
structure Tells (probes : List Resolved) (i : Identity) (seen : List (Event × Sighting))
    (t : Report.Timeline) : Prop where
  origHead : t.origHead = i.origHead.format
  createdAt : t.createdAt = i.timestamp
  events : t.events.Perm (seen.map (entryOf probes))
  inOrder : t.events.Pairwise (·.timestamp ≤ ·.timestamp)
  stable : ∀ time : Nanos, t.events.filter (·.timestamp = time) =
    (seen.map (entryOf probes)).filter (·.timestamp = time)
  lastSeen_ge : ∀ o ∈ seen, o.1.timestamp ≤ t.lastSeen
  lastSeen_mem : ∃ o ∈ seen, o.1.timestamp = t.lastSeen
  skbAddresses : t.skbAddresses = (seen.map (·.2.skb)).eraseDups.map Address.format
  freed : t.freed = true ↔ ∃ o ∈ seen, ∃ a, o.1.function = some a ∧ FreesAt probes a

theorem isFreeing_some_iff (probes : List Resolved) (address : Address) :
    (start probes).isFreeing (some address) = true ↔ FreesAt probes address := by
  simp only [isFreeing, start, List.any_eq_true, Bool.and_eq_true, beq_iff_eq, FreesAt,
    Resolved.frees]

theorem isFreeing_iff (probes : List Resolved) (function : Option Address) :
    (start probes).isFreeing function = true ↔ ∃ a, function = some a ∧ FreesAt probes a := by
  cases function with
  | none => simp [isFreeing]
  | some address => simp only [isFreeing_some_iff, Option.some.injEq, exists_eq_left']

theorem Sums.tells {l : Lifetime} (h : Sums probes seen l) (hsome : seen ≠ []) (i : Identity) :
    Tells probes i seen (timeline (i, l)) where
  origHead := rfl
  createdAt := rfl
  events := by
    rw [← h.entries]
    exact inOrder_perm _
  inOrder := pairwise_inOrder _
  stable time := by
    rw [← h.entries]
    exact filter_inOrder _ time
  lastSeen_ge := h.lastSeen_ge
  lastSeen_mem := h.lastSeen_mem.resolve_left fun hnone => hsome hnone.1
  skbAddresses := congrArg (List.map Address.format) h.skbs
  freed := by
    show l.freed = true ↔ _
    simp only [h.freed, List.any_eq_true, isFreeing_iff]

/-- A report has a timeline for each identity that was seen, by age. -/
theorem Groups.report (h : Groups probes seen c) (given : Circumstances) :
    ∃ identities : List Identity, identities.Pairwise Identity.Before ∧
      (∀ i, i ∈ identities ↔ ∃ o ∈ seen, o.2.identity = i) ∧
      List.Forall₂ (fun i t => Tells probes i (ofIdentity i seen) t) identities
        (c.report given).skbs := by
  refine ⟨c.lifetimes.keys, ?_, fun i => ?_, ?_⟩
  · exact Std.ExtTreeMap.ordered_keys.imp fun hlt => (Identity.compare_eq_lt_iff _ _).mp hlt
  · rw [Std.ExtTreeMap.mem_keys, h.mem_iff, ofIdentity, ne_eq, List.filter_eq_nil_iff]
    simp
  · rw [← Std.ExtTreeMap.map_fst_toList_eq_keys, Collector.report, List.forall₂_map_left_iff,
      List.forall₂_map_right_iff, List.forall₂_same]
    rintro ⟨i, l⟩ hmem
    have hl : c.lifetimes[i]? = some l := Std.ExtTreeMap.mem_toList_iff_getElem?_eq_some.mp hmem
    have hsums := h.sums i
    rw [Std.ExtTreeMap.getD_eq_getD_getElem?, hl, Option.getD_some] at hsums
    have hmem : i ∈ c.lifetimes := Std.ExtTreeMap.mem_iff_isSome_getElem?.mpr (by simp [hl])
    exact hsums.tells ((h.mem_iff i).mp hmem) i

/-- **The timelines are the events, grouped**: one for each identity that an event was seen with, by
age; and each has the observations of that identity and no others, in the order of their times and
of their arrival. -/
theorem report_groups_arrivals (probes : List Resolved) (arrivals : List Arrival)
    (given : Circumstances) :
    let seen := sightings arrivals
    ∃ identities : List Identity, identities.Pairwise Identity.Before ∧
      (∀ i, i ∈ identities ↔ ∃ o ∈ seen, o.2.identity = i) ∧
      List.Forall₂ (fun i t => Tells probes i (ofIdentity i seen) t) identities
        (((start probes).noteAll arrivals).report given).skbs :=
  (groups_noteAll probes arrivals).report given

end Collector

end Lifeline
