import Lifeline.Proofs.Json.Reading
import Lifeline.Report.Export

/-! Reports read from their own JSON.

Every part of a report is read back from its value: observations with and without a drop reason,
lifetimes, summaries with their maps. A map comes back because its keys are written each once. So
any text that spells the report's tokens is the report (`ofText_of_spells`), and both layouts of
the export are such texts (`report_reads_back`). -/
namespace Lifeline.Report

open Json

/-! ### Maps -/

theorem foldl_insert {κ ν : Type} [Ord κ] [Std.TransOrd κ] (l : List (κ × ν))
    (m : Std.ExtTreeMap κ ν compare) :
    l.foldl (fun m c => m.insert c.1 c.2) m = m.insertMany l := by
  induction l generalizing m with
  | nil => rfl
  | cons entry l ih => rw [List.foldl_cons, ih, Std.ExtTreeMap.insertMany_cons]

/-- A map is what its entries put into an empty one: each key is among them once. -/
theorem foldl_insert_toList {κ ν : Type} [Ord κ] [Std.TransOrd κ] [Std.LawfulEqOrd κ]
    [DecidableEq κ] (m : Std.ExtTreeMap κ ν compare) :
    m.toList.foldl (fun m c => m.insert c.1 c.2) (∅ : Std.ExtTreeMap κ ν compare) = m := by
  rw [foldl_insert]
  refine Std.ExtTreeMap.ext_getElem? fun k => ?_
  cases hk : m[k]? with
  | some v =>
    exact Std.ExtTreeMap.getElem?_insertMany_list_of_mem Std.ReflOrd.compare_self
      Std.ExtTreeMap.distinct_keys_toList (Std.ExtTreeMap.mem_toList_iff_getElem?_eq_some.mpr hk)
  | none =>
    have hcontains : (m.toList.map Prod.fst).contains k = false := by
      rw [Std.ExtTreeMap.map_fst_toList_eq_keys]
      simpa using hk
    rw [Std.ExtTreeMap.getElem?_insertMany_list_of_contains_eq_false hcontains]
    exact Std.ExtTreeMap.getElem?_empty

theorem readCounts_countsValue (m : Std.ExtTreeMap String UInt64 compare) :
    readCounts (countsValue m.toList).outline = .ok m := by
  have hmembers : readMembers Key.readText readUInt64 (countsValue m.toList).outline =
      .ok m.toList :=
    readMembers_object readText_key readUInt64_number m.toList
  rw [readCounts, hmembers]
  exact congrArg Except.ok (foldl_insert_toList m)

theorem readDrops_countsValue (m : Std.ExtTreeMap UInt32 UInt64 compare) :
    readDrops (countsValue (m.toList.map fun d => (d.1.toNat.repr, d.2))).outline = .ok m := by
  have hmembers : readMembers Key.readUInt32 readUInt64
      (countsValue (m.toList.map fun d => (d.1.toNat.repr, d.2))).outline = .ok m.toList := by
    rw [countsValue, List.map_map]
    exact readMembers_object readUInt32_key readUInt64_number m.toList
  rw [readDrops, hmembers]
  exact congrArg Except.ok (foldl_insert_toList m)

/-! ### Records -/

theorem Entry.read_toValue (e : Entry) : Entry.shape.read e.toValue.outline = .ok e := by
  obtain ⟨timestamp, function, skb, dropReason⟩ := e
  have hnames : (Entry.shape.fields.map (·.name)).Nodup := by decide
  cases dropReason with
  | none =>
    rw [Entry.toValue, Shape.read_object hnames ⟨["drop_reason"], rfl⟩]
    simp [Entry.shape, word, bind, Except.bind, pure, Except.pure, required]
  | some reason =>
    rw [Entry.toValue, Shape.read_object hnames ⟨[], rfl⟩]
    simp [Entry.shape, word, bind, Except.bind, pure, Except.pure, required, readOption_number]

theorem readList_text (l : List String) :
    readList readText (Value.array (l.map .text)).outline = .ok l :=
  readList_array fun s _ => readText_text s

theorem Timeline.read_toValue (t : Timeline) : Timeline.shape.read t.toValue.outline = .ok t := by
  have hnames : (Timeline.shape.fields.map (·.name)).Nodup := by decide
  have hevents : readList Entry.shape.read (Value.array (t.events.map Entry.toValue)).outline =
      .ok t.events :=
    readList_array fun e _ => e.read_toValue
  rw [Timeline.toValue, Shape.read_object hnames ⟨[], rfl⟩]
  simp [Timeline.shape, word, bind, Except.bind, pure, Except.pure, required, readList_text,
    hevents]

theorem Summary.read_toValue (s : Summary) : Summary.shape.read s.toValue.outline = .ok s := by
  have hnames : (Summary.shape.fields.map (·.name)).Nodup := by decide
  rw [Summary.toValue, Shape.read_object hnames ⟨[], rfl⟩]
  simp [Summary.shape, word, bind, Except.bind, pure, Except.pure, required,
    readCounts_countsValue, readDrops_countsValue]

theorem read_toValue (r : Report) : shape.read r.toValue.outline = .ok r := by
  have hnames : (shape.fields.map (·.name)).Nodup := by decide
  have hskbs : readList Timeline.shape.read (Value.array (r.skbs.map Timeline.toValue)).outline =
      .ok r.skbs :=
    readList_array fun t _ => t.read_toValue
  rw [toValue, Shape.read_object hnames ⟨[], rfl⟩]
  simp [shape, word, bind, Except.bind, pure, Except.pure, required, Summary.read_toValue, hskbs]

/-- However it is laid out, the report's JSON is the report. -/
theorem ofText_of_spells (r : Report) {text : String}
    (h : Spells r.toValue.tree.tokens text.toList) : ofText text = .ok r := by
  rw [ofText, h.ofText_eq, Document.read]
  change shape.read r.toValue.outline >>= _ = _
  rw [r.read_toValue]
  rfl

theorem ofText_pretty (r : Report) : ofText r.pretty = .ok r := by
  refine r.ofText_of_spells ?_
  rw [pretty, String.toList_ofList]
  exact r.toValue.spells_pretty

theorem ofText_compact (r : Report) : ofText r.compact = .ok r := by
  refine r.ofText_of_spells ?_
  rw [compact, String.toList_ofList]
  exact r.toValue.spells_compact

/-- **A report reads back as itself**: whatever its texts, numbers, maps and lists are, its JSON
is read in either layout and gives the same report, and what was read is exported to the same
bytes. -/
theorem report_reads_back (r : Report) :
    ofText (render .json r) = .ok r ∧ ofText r.compact = .ok r ∧
      (ofText (render .json r)).map (fun read => (render .json read).toUTF8) =
        .ok (render .json r).toUTF8 ∧
      (ofText r.compact).map (fun read => read.compact.toUTF8) = .ok r.compact.toUTF8 := by
  have hpretty : ofText (render .json r) = .ok r := r.ofText_pretty
  have hcompact := r.ofText_compact
  refine ⟨hpretty, hcompact, ?_, ?_⟩
  · rw [hpretty]
    rfl
  · rw [hcompact]
    rfl

end Lifeline.Report
