import Lifeline.Proofs.Report.Arrival
import Lifeline.Reader
import Mathlib.Algebra.BigOperators.Group.Finset.Basic
import Mathlib.Data.UInt

/-! The numbers of a report balance.

Each number of a report is kept apart from the others: events are counted in all, by function, by
drop reason, and one by one in the timelines, and some of them leave early. They still come to the
same, since whatever is counted by kind adds up to what there is (`sum_map_count`), be the kinds
functions, reasons or identities. A reader only hands on what it is given, so neither the batches
nor its log make a difference (`Reader.collector_readAll`).

`report_balances` has the equations, for the words that a report has and for the numbers that they
stand for. -/
namespace Lifeline

/-- What is counted by kind adds up to what there is. -/
theorem sum_map_count {κ : Type} [DecidableEq κ] {kinds xs : List κ} (hnodup : kinds.Nodup)
    (hall : ∀ x ∈ xs, x ∈ kinds) : (kinds.map fun k => xs.count k).sum = xs.length := by
  have hsum := Multiset.sum_count_eq_card (s := kinds.toFinset) (m := (xs : Multiset κ))
    (fun x hx => List.mem_toFinset.mpr (hall x hx))
  rw [List.sum_toFinset _ hnodup] at hsum
  simpa using hsum

/-! ### The reader -/

/-- Reads batches one after another, each with the wait behind it. -/
def Reader.readAll (r : Reader) : List (List (List UInt8) × Nat) → Reader
  | [] => r
  | batch :: rest => (r.read batch.1 batch.2).2.readAll rest

/-- A reader hands on what it is given. -/
theorem Reader.collector_readAll (r : Reader) (batches : List (List (List UInt8) × Nat)) :
    (r.readAll batches).collector =
      r.collector.noteAll ((batches.flatMap Prod.fst).map Collector.arrivalOf) := by
  induction batches generalizing r with
  | nil => rfl
  | cons batch rest ih =>
    have hread : (r.read batch.1 batch.2).2.collector =
        r.collector.noteAll (batch.1.map Collector.arrivalOf) :=
      Collector.receiveAll_eq_noteAll r.verbose r.collector batch.1
    rw [readAll, ih, hread, List.flatMap_cons, List.map_append, Collector.noteAll,
      Collector.noteAll, Collector.noteAll, List.foldl_append]

namespace Collector

/-! ### Counts -/

section

variable {κ : Type} [Ord κ] [Std.TransOrd κ] [Std.LawfulEqOrd κ] [DecidableEq κ]

theorem getElem?_foldl_count (xs : List κ) (k : κ) :
    (xs.foldl count ∅)[k]? = if k ∈ xs then some (xs.count k) else none := by
  induction xs using List.reverseRecOn with
  | nil => simp
  | append_singleton before x ih =>
    rw [List.foldl_concat, count, Std.ExtTreeMap.getElem?_insert,
      Std.ExtTreeMap.getD_eq_getD_getElem?]
    by_cases hx : x = k
    · subst hx
      rw [ih]
      by_cases hbefore : x ∈ before <;> simp [hbefore, List.count_eq_zero_of_not_mem]
    · have hne : compare x k ≠ .eq := fun h => hx (Std.LawfulEqOrd.eq_of_compare h)
      rw [if_neg hne, ih]
      simp [Ne.symm hx, hx]

/-- The values of a map that counts add up to what was counted. -/
theorem sum_foldl_count (xs : List κ) :
    ((xs.foldl count ∅).toList.map (·.2)).sum = xs.length := by
  have hvalues : (xs.foldl count ∅).toList.map (·.2) =
      (xs.foldl count ∅).keys.map fun k => xs.count k := by
    rw [← Std.ExtTreeMap.map_fst_toList_eq_keys, List.map_map]
    refine List.map_congr_left fun entry hentry => ?_
    have hat := Std.ExtTreeMap.mem_toList_iff_getElem?_eq_some.mp hentry
    rw [getElem?_foldl_count] at hat
    split at hat
    · exact (Option.some.inj hat).symm
    · cases hat
  rw [hvalues]
  refine sum_map_count ?_ fun x hx => ?_
  · exact Std.ExtTreeMap.distinct_keys.imp fun h heq =>
      h (Std.LawfulEqOrd.compare_eq_iff_eq.mpr heq)
  · rw [Std.ExtTreeMap.mem_keys, Std.ExtTreeMap.mem_iff_isSome_getElem?, getElem?_foldl_count,
      if_pos hx]
    rfl

end

/-! ### Timelines -/

variable {probes : List Probe.Resolved} {seen : List (Event × Sighting)} {c : Collector}

/-- The timelines are those of the identities that were seen. -/
theorem Groups.exists_identities (h : Groups probes seen c) (given : Circumstances) :
    ∃ identities : List Identity, identities.Nodup ∧
      (∀ i, i ∈ identities ↔ i ∈ seen.map (·.2.identity)) ∧
      List.Forall₂ (fun i t => Tells probes i (ofIdentity i seen) t) identities
        (c.report given).skbs := by
  obtain ⟨identities, hordered, hmem, htells⟩ := h.report given
  refine ⟨identities, ?_, fun i => ?_, htells⟩
  · exact hordered.imp fun hbefore heq => (heq ▸ hbefore).asymm (heq ▸ hbefore)
  · rw [hmem, List.mem_map]

/-- There are no more timelines than sightings. -/
theorem Groups.length_skbs_le (h : Groups probes seen c) (given : Circumstances) :
    (c.report given).skbs.length ≤ seen.length := by
  obtain ⟨identities, hnodup, hmem, htells⟩ := h.exists_identities given
  rw [← htells.length_eq, ← List.length_map (f := fun o : Event × Sighting => o.2.identity)]
  exact (List.subperm_of_subset hnodup fun i hi => (hmem i).mp hi).length_le

/-- Entries of a kind are found in the timelines as often as they were seen. -/
theorem Groups.sum_countP (h : Groups probes seen c) (given : Circumstances)
    (kind : Report.Entry → Bool) :
    ((c.report given).skbs.map fun t => t.events.countP kind).sum =
      seen.countP fun o => kind (entryOf probes o) := by
  obtain ⟨identities, hnodup, hmem, htells⟩ := h.exists_identities given
  let counted := (seen.filter fun o => kind (entryOf probes o)).map (·.2.identity)
  have hcount (i : Identity) (t : Report.Timeline) (ht : Tells probes i (ofIdentity i seen) t) :
      counted.count i = t.events.countP kind := by
    rw [ht.events.countP_eq, List.countP_map, ofIdentity, List.countP_filter, List.count,
      List.countP_map, List.countP_filter]
    refine List.countP_congr fun o _ => ?_
    simp [and_comm]
  have hcounts : (identities.map fun i => counted.count i) =
      (c.report given).skbs.map fun t => t.events.countP kind := by
    rw [← List.forall₂_eq_eq_eq, List.forall₂_map_left_iff, List.forall₂_map_right_iff]
    exact htells.imp hcount
  rw [← hcounts, sum_map_count hnodup fun i hi => ?_]
  · simp only [counted, List.length_map, List.countP_eq_length_filter]
  · obtain ⟨o, ho, rfl⟩ := List.mem_map.mp hi
    exact (hmem _).mpr (List.mem_map_of_mem (List.mem_of_mem_filter ho))

variable {arrivals : List Arrival}

/-- What arrives is an event or invalid. -/
theorem length_eventsOf (arrivals : List Arrival) :
    (eventsOf arrivals).length + (arrivals.filter (· = .invalid)).length = arrivals.length := by
  induction arrivals with
  | nil => rfl
  | cons a rest ih =>
    rw [List.length_cons, ← ih]
    cases a <;> simp [eventsOf] <;> omega

/-- An event is untracked or a sighting. -/
theorem length_sightings (arrivals : List Arrival) :
    ((eventsOf arrivals).filter (·.sighting = none)).length + (sightings arrivals).length =
      (eventsOf arrivals).length := by
  induction arrivals with
  | nil => rfl
  | cons a rest ih =>
    cases a with
    | invalid => exact ih
    | event e =>
      cases hs : e.sighting <;>
        simp [eventsOf, sightings, Arrival.sighted?, hs] at ih ⊢ <;> omega

end Collector

/-! ### The equations -/

/-- The numbers of a report on so many raw events agree with each other and with its timelines;
`number` is what a word is worth, and `ofCount` what a count comes to. -/
structure Report.Balanced {α : Type} [Zero α] [Add α] (number : UInt64 → α) (ofCount : Nat → α)
    (received : Nat) (r : Report) : Prop where
  received : number r.summary.totalEvents + number r.summary.invalidEvents = ofCount received
  tracked : number r.summary.totalEvents =
    number r.summary.untrackedEvents + ofCount (r.skbs.map (·.events.length)).sum
  functions : (r.summary.eventsByFunction.toList.map (number ·.2)).sum =
    number r.summary.totalEvents
  drops : (r.summary.dropsByReason.toList.map (number ·.2)).sum =
    ofCount (r.skbs.map fun t => t.events.countP (·.dropReason.isSome)).sum
  reasons : 0 ∉ r.summary.dropsByReason
  skbs : number r.summary.trackedSkbs = ofCount r.skbs.length
  completed : number r.summary.completedSkbs = ofCount (r.skbs.countP (·.freed))

namespace Collector

variable {probes : List Probe.Resolved} {arrivals : List Arrival} {c : Collector}
  {α : Type} [Zero α] [Add α] {number : UInt64 → α} {ofCount : Nat → α}

/-- Counts by kind that add up still do as words. -/
theorem sum_words {κ : Type} [Ord κ] [Std.TransOrd κ] [Std.LawfulEqOrd κ] [DecidableEq κ]
    (xs : List κ) (hzero : ofCount 0 = 0) (hadd : ∀ m n, ofCount (m + n) = ofCount m + ofCount n)
    (hword : ∀ n ≤ xs.length, number (UInt64.ofNat n) = ofCount n) :
    ((words (xs.foldl count ∅)).toList.map (number ·.2)).sum = ofCount xs.length := by
  have hsum (counts : List Nat) (h : counts.sum ≤ xs.length) :
      (counts.map fun n => number (UInt64.ofNat n)).sum = ofCount counts.sum := by
    induction counts with
    | nil => exact hzero.symm
    | cons n rest ih =>
      rw [List.sum_cons] at h
      rw [List.map_cons, List.sum_cons, List.sum_cons, hadd, hword n (by omega), ih (by omega)]
  have hcounts := sum_foldl_count xs
  rw [words, Std.ExtTreeMap.toList_map, List.map_map]
  rw [← hcounts, ← hsum _ hcounts.le, List.map_map]
  rfl

/-- The equations hold by any worth of words that tells counts of this size. -/
theorem balanced_of (number : UInt64 → α) (ofCount : Nat → α) (htallies : Tallies probes arrivals c)
    (hgroups : Groups probes (sightings arrivals) c) (given : Circumstances)
    (hzero : ofCount 0 = 0)
    (hadd : ∀ m n, ofCount (m + n) = ofCount m + ofCount n)
    (hword : ∀ n ≤ arrivals.length, number (UInt64.ofNat n) = ofCount n) :
    (c.report given).Balanced number ofCount arrivals.length := by
  have hevents := length_eventsOf arrivals
  have hsightings := length_sightings arrivals
  have hskbs := hgroups.length_skbs_le given
  have htotal := htallies.totalEvents
  have huntracked := htallies.untrackedEvents
  have hinvalid := htallies.invalidEvents
  have hentries : ((c.report given).skbs.map (·.events.length)).sum =
      (sightings arrivals).length := by
    simpa using hgroups.sum_countP given fun _ => true
  have hdrops : ((c.report given).skbs.map fun t => t.events.countP (·.dropReason.isSome)).sum =
      ((sightings arrivals).filterMap fun o => dropReason? o.2).length := by
    rw [hgroups.sum_countP given, List.length_filterMap_eq_countP]
    rfl
  have hdropped : ((sightings arrivals).filterMap fun o => dropReason? o.2).length ≤
      (sightings arrivals).length := List.length_filterMap_le _ _
  have hcompleted : (c.report given).skbs.countP (·.freed) ≤ (c.report given).skbs.length :=
    List.countP_le_length
  refine ⟨?_, ?_, ?_, ?_, ?_, ?_, ?_⟩
  · show number (UInt64.ofNat c.totalEvents) + number (UInt64.ofNat c.invalidEvents) = _
    rw [hword _ (by omega), hword _ (by omega), ← hadd]
    exact congrArg ofCount (by omega)
  · show number (UInt64.ofNat c.totalEvents) = number (UInt64.ofNat c.untrackedEvents) + _
    rw [hword _ (by omega), hword _ (by omega), ← hadd]
    exact congrArg ofCount (by omega)
  · show ((words c.eventsByFunction).toList.map (number ·.2)).sum = number (UInt64.ofNat _)
    rw [htallies.eventsByFunction, sum_words _ hzero hadd, List.length_map, hword _ (by omega),
      htotal]
    intro n hn
    rw [List.length_map] at hn
    exact hword n (by omega)
  · show ((words c.dropsByReason).toList.map (number ·.2)).sum = _
    rw [htallies.dropsByReason, hdrops]
    exact sum_words _ hzero hadd fun n hn => hword n (by omega)
  · show 0 ∉ words c.dropsByReason
    rw [htallies.dropsByReason, words, Std.ExtTreeMap.mem_map,
      Std.ExtTreeMap.mem_iff_isSome_getElem?, getElem?_foldl_count, if_neg]
    · exact Bool.false_ne_true
    · intro hzero
      obtain ⟨o, -, hreason⟩ := List.mem_filterMap.mp hzero
      unfold dropReason? at hreason
      split at hreason <;> simp_all
  · show number (UInt64.ofNat c.skbCount) = _
    rw [skbCount_eq c given]
    exact hword _ (by omega)
  · show number (UInt64.ofNat c.completedCount) = _
    rw [completedCount_eq c given, List.count, List.countP_map]
    simp only [Function.comp_def, beq_true]
    exact hword _ (by omega)

end Collector

/-- **The totals of a report balance**, whatever bytes are read: as words, and as numbers if there
are fewer events than a word can tell. But for its time the report depends on what is read alone,
not on the batches, the waits, the log or the lines of progress. -/
theorem report_balances (probes : List Probe.Resolved) (verbose : Bool) (interval : Option Nat)
    (batches : List (List (List UInt8) × Nat)) (given : Collector.Circumstances) :
    let received := batches.flatMap Prod.fst
    let report := ((Reader.start probes verbose interval).2.readAll batches).collector.report given
    report.Balanced id UInt64.ofNat received.length ∧
      (received.length < UInt64.size → report.Balanced UInt64.toNat id received.length) ∧
      ∀ verbose' interval' batches' madeAt, batches'.flatMap Prod.fst = received →
        ((Reader.start probes verbose' interval').2.readAll batches').collector.report
          { given with timestamp := madeAt } = { report with timestamp := madeAt } := by
  intro received report
  let arrivals := received.map Collector.arrivalOf
  have hlength : arrivals.length = received.length := List.length_map _
  have hread (verbose : Bool) (interval : Option Nat) (batches : List (List (List UInt8) × Nat)) :
      ((Reader.start probes verbose interval).2.readAll batches).collector =
        (Collector.start probes).noteAll
          ((batches.flatMap Prod.fst).map Collector.arrivalOf) :=
    Reader.collector_readAll _ batches
  have hreport : report = ((Collector.start probes).noteAll arrivals).report given :=
    congrArg (·.report given) (hread verbose interval batches)
  have hbalanced {α : Type} [Zero α] [Add α] (number : UInt64 → α) (ofCount : Nat → α) :=
    Collector.balanced_of number ofCount (Collector.tallies_noteAll probes arrivals)
      (Collector.groups_noteAll probes arrivals) given
  refine ⟨?_, fun hfew => ?_, fun verbose' interval' batches' madeAt hsame => ?_⟩
  · rw [hreport, ← hlength]
    exact hbalanced id UInt64.ofNat rfl UInt64.ofNat_add fun n _ => rfl
  · rw [hreport, ← hlength]
    refine hbalanced UInt64.toNat id rfl (fun m n => rfl) fun n hn => ?_
    exact UInt64.toNat_ofNat_of_lt' (by omega)
  · rw [hreport, hread, hsame]
    rfl

/-- An event without a buffer, bytes that are no event, and in a later batch a drop. -/
def mixture : List (List (List UInt8) × Nat) :=
  [([[12, 0, 1, 1, 8, 0] ++ RawEvent.commonPayload 100, [9]], 3), ([], 0),
   ([[44, 0, 1, 1, 8, 0] ++ RawEvent.commonPayload 110 ++ [4, 1, 28, 0] ++
      RawEvent.trackingPayload ⟨⟨0x22, 100⟩, 0x1000, 2⟩], 7)]

/-- Two events and a fault; of the events one is in a timeline. -/
theorem mixture_balanced :
    let report := ((Reader.start [] true (some 1)).2.readAll mixture).collector.report ⟨"", 1, ∅, 0⟩
    (mixture.flatMap Prod.fst).length < UInt64.size ∧ report.Balanced UInt64.toNat id 3 ∧
      report.summary.totalEvents = 2 ∧ report.summary.invalidEvents = 1 ∧
      report.summary.untrackedEvents = 1 ∧
      report.skbs.map (fun t => t.events.map (·.dropReason)) = [[some 2]] ∧
      ((Reader.start [] false none).2.readAll [(mixture.flatMap Prod.fst, 0)]).collector.report
        ⟨"later", 1, ∅, 0⟩ = { report with timestamp := "later" } := by
  intro report
  have hfew : (mixture.flatMap Prod.fst).length < UInt64.size := by decide
  obtain ⟨-, hbalanced, hsame⟩ := report_balances [] true (some 1) mixture ⟨"", 1, ∅, 0⟩
  refine ⟨hfew, hbalanced hfew, by decide +kernel, by decide +kernel, by decide +kernel,
    by decide +kernel, hsame false none _ "later" ?_⟩
  rw [List.flatMap_singleton]

end Lifeline
