import Lifeline.Proofs.Address
import Lifeline.Proofs.Report.Balance
import Mathlib.Data.List.Sort

/-! What a report has under the text of an address.

A report has addresses as texts: those of a buffer, the heads of identities, and the functions that
no probe has a name for. As no two addresses have one text, whatever is apart in the collector stays
apart in its report (`Collector.Tells.keepsApart`, `Collector.nameOf_eq_format_iff`), and as texts
are in the order of the addresses, functions without a name are listed by number
(`Collector.Tallies.format_sublist_keys`). `report_keeps_apart` has all of it. -/
namespace Lifeline

/-- No probe is at an address. -/
def Probe.Unprobed (probes : List Probe.Resolved) (address : Address) : Prop :=
  ∀ p ∈ probes, p.address ≠ address

instance (probes : List Probe.Resolved) : DecidablePred (Probe.Unprobed probes) :=
  fun address => inferInstanceAs (Decidable (∀ p ∈ probes, p.address ≠ address))

/-- The timeline of a buffer has each address of the buffer once, under a text of its own. -/
structure Report.Timeline.KeepsApart (i : Identity) (seen : List (Event × Sighting))
    (t : Report.Timeline) : Prop where
  origHead : t.origHead = i.origHead.format
  createdAt : t.createdAt = i.timestamp
  skbs : ∃ skbs : List Address, skbs.Nodup ∧ (∀ a, a ∈ skbs ↔ ∃ o ∈ seen, o.2.skb = a) ∧
    t.skbAddresses = skbs.map Address.format
  nodup : t.skbAddresses.Nodup

namespace Collector

open Probe

variable {probes : List Resolved} {arrivals : List Arrival} {c : Collector} {a : Address}

/-! ### Timelines -/

theorem Tells.keepsApart {i : Identity} {seen : List (Event × Sighting)} {t : Report.Timeline}
    (h : Tells probes i seen t) : t.KeepsApart i seen := by
  have hnodup := nodup_eraseDups (seen.map (·.2.skb))
  refine ⟨h.origHead, h.createdAt, ⟨_, hnodup, fun a => ?_, h.skbAddresses⟩, ?_⟩
  · rw [List.mem_eraseDups, List.mem_map]
  · rw [h.skbAddresses]
    exact hnodup.map fun a b => Address.format_inj.mp

/-- Lifetimes are told apart by the text of the head and the time of the first sight. -/
theorem nodup_origins {identities : List Identity} {ts : List Report.Timeline}
    {of : Identity → List (Event × Sighting)} (hnodup : identities.Nodup)
    (h : List.Forall₂ (fun i t => t.KeepsApart i (of i)) identities ts) :
    (ts.map fun t => (t.origHead, t.createdAt)).Nodup := by
  have horigins : identities.map (fun i => (i.origHead.format, i.timestamp)) =
      ts.map fun t => (t.origHead, t.createdAt) := by
    rw [← List.forall₂_eq_eq_eq, List.forall₂_map_left_iff, List.forall₂_map_right_iff]
    exact h.imp fun i t ht => by rw [ht.origHead, ht.createdAt]
  rw [← horigins]
  apply hnodup.map
  intro i j hsame
  obtain ⟨hhead, htime⟩ := Prod.mk.inj hsame
  cases i
  cases j
  cases Address.format_inj.mp hhead
  cases htime
  rfl

/-! ### Functions -/

theorem nameOf_of_unprobed (h : Unprobed probes a) : nameOf probes (some a) = a.format := by
  have hnone : probes.filter (·.address = a) = [] :=
    List.filter_eq_nil_iff.mpr fun p hp => by simpa using h p hp
  rw [nameOf, hnone, List.getLast?_nil]

/-- Only its own events have the text of an address for a name, unless a probe is called so. -/
theorem nameOf_eq_format_iff (h : Unprobed probes a)
    (hsymbol : ∀ p ∈ probes, p.symbol ≠ a.format) (function : Option Address) :
    nameOf probes function = a.format ↔ function = some a := by
  constructor
  · intro hname
    cases function with
    | none =>
      -- no text of an address is as short as the name of no function
      have hlength : "unknown".length = a.format.length := congrArg String.length hname
      rw [Address.length_format] at hlength
      exact absurd hlength (by decide)
    | some b =>
      rw [nameOf] at hname
      split at hname
      · rename_i p hp
        have hmem := List.mem_of_mem_filter (List.mem_of_getLast? hp)
        exact absurd hname (hsymbol p hmem)
      · rw [Address.format_inj.mp hname]
  · intro hfunction
    rw [hfunction, nameOf_of_unprobed h]

/-- The names that events have in a report. -/
def functionNames (probes : List Resolved) (arrivals : List Arrival) : List String :=
  (eventsOf arrivals).map fun e => nameOf probes e.function

theorem Tallies.getElem?_words (h : Tallies probes arrivals c) (name : String) :
    (words c.eventsByFunction)[name]? =
      if name ∈ functionNames probes arrivals then
        some (UInt64.ofNat ((functionNames probes arrivals).count name))
      else none := by
  rw [words, Std.ExtTreeMap.getElem?_map, h.eventsByFunction, getElem?_foldl_count,
    ← functionNames]
  split <;> rfl

/-- Functions without a name are listed by number. -/
theorem Tallies.format_sublist_keys (h : Tallies probes arrivals c) {addresses : List Address}
    (hsorted : addresses.Pairwise (· < ·))
    (hseen : ∀ a ∈ addresses, Unprobed probes a ∧ ∃ e ∈ eventsOf arrivals, e.function = some a) :
    (addresses.map Address.format).Sublist (words c.eventsByFunction).keys := by
  have htexts : (addresses.map Address.format).Pairwise (· < ·) :=
    List.pairwise_map.mpr (hsorted.imp Address.format_lt_format)
  have hordered := Std.ExtTreeMap.ordered_keys (t := words c.eventsByFunction)
  have hkeys : (words c.eventsByFunction).keys.Pairwise (· < ·) :=
    hordered.imp compareOfLessAndEq_eq_lt.mp
  refine List.sublist_of_subperm_of_pairwise ?_ htexts hkeys
  refine List.subperm_of_subset (htexts.imp fun hlt heq => ?_) fun text htext => ?_
  · exact String.lt_irrefl _ (heq ▸ hlt)
  · obtain ⟨a, ha, rfl⟩ := List.mem_map.mp htext
    obtain ⟨hunprobed, e, he, hfunction⟩ := hseen a ha
    rw [Std.ExtTreeMap.mem_keys, Std.ExtTreeMap.mem_iff_isSome_getElem?, h.getElem?_words,
      if_pos]
    · rfl
    · rw [← nameOf_of_unprobed hunprobed, ← hfunction]
      exact List.mem_map_of_mem he

/-- Under the text of a function without a name stands how many events it had. -/
theorem Tallies.getD_format (h : Tallies probes arrivals c) (hunprobed : Unprobed probes a)
    (hsymbol : ∀ p ∈ probes, p.symbol ≠ a.format) :
    (words c.eventsByFunction).getD a.format 0 =
      UInt64.ofNat ((eventsOf arrivals).countP (·.function = some a)) := by
  have hcount : (functionNames probes arrivals).count a.format =
      (eventsOf arrivals).countP (·.function = some a) := by
    rw [functionNames, List.count, List.countP_map]
    refine List.countP_congr fun e _ => ?_
    simpa using nameOf_eq_format_iff hunprobed hsymbol e.function
  rw [Std.ExtTreeMap.getD_eq_getD_getElem?, h.getElem?_words, hcount]
  split
  · rfl
  · rename_i hnone
    rw [← hcount, List.count_eq_zero_of_not_mem hnone]
    rfl

/-- **A report keeps addresses apart.** The text of an address is `0x` and sixteen digits that are
worth it, and texts are equal and in order just as the addresses are. So the timelines are told
apart by head and time of the first sight, and each has every address of its buffer once; the
functions that no probe is at are listed by number, each under a text of its own, where its events
are counted unless a probe is called so. -/
theorem report_keeps_apart (probes : List Resolved) (arrivals : List Arrival)
    (given : Circumstances) :
    let seen := sightings arrivals
    let report := ((start probes).noteAll arrivals).report given
    (∀ a : Address, a.IsSpelled a.format) ∧
      (∀ a b : Address, (a.format = b.format ↔ a = b) ∧ (a.format < b.format ↔ a < b)) ∧
      (report.skbs.map fun t => (t.origHead, t.createdAt)).Nodup ∧
      (∃ identities : List Identity, identities.Nodup ∧
        (∀ i, i ∈ identities ↔ ∃ o ∈ seen, o.2.identity = i) ∧
        List.Forall₂ (fun i t => t.KeepsApart i (ofIdentity i seen)) identities report.skbs) ∧
      (∀ addresses : List Address, addresses.Pairwise (· < ·) →
        (∀ a ∈ addresses, Unprobed probes a ∧ ∃ e ∈ eventsOf arrivals, e.function = some a) →
        (addresses.map Address.format).Sublist report.summary.eventsByFunction.keys) ∧
      ∀ a, Unprobed probes a → (∀ p ∈ probes, p.symbol ≠ a.format) →
        report.summary.eventsByFunction.getD a.format 0 =
          UInt64.ofNat ((eventsOf arrivals).countP (·.function = some a)) := by
  intro seen report
  have hgroups : Groups probes seen ((start probes).noteAll arrivals) :=
    groups_noteAll probes arrivals
  have htallies := tallies_noteAll probes arrivals
  obtain ⟨identities, hnodup, hmem, htells⟩ := hgroups.exists_identities given
  have hapart : List.Forall₂ (fun i t => t.KeepsApart i (ofIdentity i seen)) identities
      report.skbs :=
    htells.imp fun i t h => h.keepsApart
  refine ⟨Address.isSpelled_format, fun a b => ⟨Address.format_inj, Address.format_lt_format_iff⟩,
    nodup_origins hnodup hapart, ⟨identities, hnodup, fun i => ?_, hapart⟩, ?_, ?_⟩
  · rw [hmem, List.mem_map]
  · intro addresses hsorted hseen
    exact htallies.format_sublist_keys hsorted hseen
  · intro a hunprobed hsymbol
    exact htallies.getD_format hunprobed hsymbol

/-- One head for two buffers, at functions of which only one has a name. -/
def strangers : List Arrival :=
  [.event ⟨120, some 0x10, some ⟨⟨0x22, 100⟩, 0x2000, 0⟩⟩,
   .event ⟨130, some 0x9, some ⟨⟨0x22, 100⟩, 0x1000, 0⟩⟩,
   .event ⟨140, some 0x10, some ⟨⟨0x22, 140⟩, 0x2000, 0⟩⟩, .event ⟨150, some 0x8, none⟩]

theorem strangers_apart :
    let probes : List Resolved := [⟨"ip_rcv", 0x8, ⟨0, unavailable⟩, none⟩]
    let report := ((start probes).noteAll strangers).report ⟨"", 1, ∅, 0⟩
    [0x9, 0x10].Pairwise (fun a b : Address => a < b) ∧
      (∀ a ∈ ([0x9, 0x10] : List Address),
        Unprobed probes a ∧ ∃ e ∈ eventsOf strangers, e.function = some a) ∧
      (∀ p ∈ probes, p.symbol ≠ Address.format 0x10) ∧
      (report.skbs.map fun t => (t.origHead, t.createdAt)) =
        [("0x0000000000000022", 100), ("0x0000000000000022", 140)] ∧
      (report.skbs.map fun t => (t.origHead, t.createdAt)).Nodup ∧
      ["0x0000000000000009", "0x0000000000000010"].Sublist report.summary.eventsByFunction.keys ∧
      report.summary.eventsByFunction.getD "0x0000000000000010" 0 = 2 := by
  intro probes report
  have hsorted : [0x9, 0x10].Pairwise (fun a b : Address => a < b) := by decide
  have hnine : Unprobed probes 0x9 ∧ ∃ e ∈ eventsOf strangers, e.function = some 0x9 := by
    decide +kernel
  have hsixteen : Unprobed probes 0x10 ∧ ∃ e ∈ eventsOf strangers, e.function = some 0x10 := by
    decide +kernel
  have hseen : ∀ a ∈ ([0x9, 0x10] : List Address),
      Unprobed probes a ∧ ∃ e ∈ eventsOf strangers, e.function = some a :=
    List.forall_mem_cons.mpr ⟨hnine, List.forall_mem_singleton.mpr hsixteen⟩
  have hsymbol : ∀ p ∈ probes, p.symbol ≠ Address.format 0x10 := by decide
  obtain ⟨-, -, horigins, -, hlisted, hcounted⟩ := report_keeps_apart probes strangers ⟨"", 1, ∅, 0⟩
  exact ⟨hsorted, hseen, hsymbol, by decide +kernel, horigins, hlisted _ hsorted hseen,
    hcounted 0x10 hsixteen.1 hsymbol⟩

end Collector

end Lifeline
