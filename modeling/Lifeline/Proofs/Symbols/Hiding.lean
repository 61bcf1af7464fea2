import Lifeline.Proofs.Symbols.Listing

/-! Kernels that hide their addresses.

A list is refused as hidden if each of its entries has zero for an address. But a name keeps the
address of its first entry, so an entry further down can spare a list from being refused without
getting into the table: of `masked_accepted` nothing is left but zero. `hidden_addresses_told` says
of which lists an address is left. -/
namespace Lifeline.Symbols

/-- An entry has an address, and no entry of the same name before it is without one. -/
def Shows (entries : List Entry) : Prop :=
  ∃ before e after, entries = before ++ e :: after ∧ e.address ≠ 0 ∧
    ∀ e' ∈ before, e'.name = e.name → e'.address ≠ 0

theorem Shows.exists_address {entries : List Entry} (h : Shows entries) :
    ∃ e ∈ entries, e.address ≠ 0 := by
  obtain ⟨before, e, after, rfl, haddress, -⟩ := h
  exact ⟨e, List.mem_append_right before List.mem_cons_self, haddress⟩

/-- A table has an address just if its entries show one. -/
theorem exists_addressOf?_iff (entries : List Entry) :
    (∃ name address, (ofEntries entries).addressOf? name = some address ∧ address ≠ 0) ↔
      Shows entries := by
  simp only [addressOf?_ofEntries]
  constructor
  · intro ⟨name, address, hknown, haddress⟩
    obtain ⟨e, hfirst, rfl⟩ := Option.map_eq_some_iff.mp hknown
    obtain ⟨hname, before, after, rfl, hbefore⟩ := List.find?_eq_some_iff_append.mp hfirst
    refine ⟨before, e, after, rfl, haddress, fun e' he' hsame => ?_⟩
    have hother := hbefore e' he'
    rw [hsame, hname] at hother
    exact absurd hother Bool.false_ne_true
  · intro ⟨before, e, after, hdivided, haddress, hbefore⟩
    rw [hdivided]
    -- the entry itself is kept, unless its name came before, and then with an address
    cases hearlier : before.find? (·.name == e.name) with
    | none =>
      refine ⟨e.name, e.address, ?_, haddress⟩
      simp [List.find?_append, hearlier]
    | some first =>
      have hname : first.name = e.name := by simpa using List.find?_some hearlier
      refine ⟨e.name, first.address, ?_, hbefore first (List.mem_of_find?_eq_some hearlier) hname⟩
      simp [List.find?_append, hearlier]

/-! ### Reading -/

theorem Lists.read_eq {bytes : List UInt8} {entries : List Entry} (h : Lists bytes entries) :
    read bytes =
      if entries = [] then .error .noTextSymbol
      else if ∀ e ∈ entries, e.address = 0 then .error .hidden
      else .ok (ofEntries entries) := by
  simp only [read, h.readEntries?_eq, List.all_eq_true, beq_iff_eq]

/-- Bytes that are not refused as no text have entries. -/
theorem exists_lists_of_read {bytes : List UInt8} (h : read bytes ≠ .error .notText) :
    ∃ entries, Lists bytes entries := by
  refine exists_lists fun line hline => by_contra fun hvalid => h ?_
  rw [read, readEntries?_of_not_valid ⟨line, hline, hvalid⟩]

theorem read_eq_hidden_iff (bytes : List UInt8) :
    read bytes = .error .hidden ↔
      ∃ entries, Lists bytes entries ∧ entries ≠ [] ∧ ∀ e ∈ entries, e.address = 0 := by
  constructor
  · intro h
    have htext : read bytes ≠ .error .notText := by simp [h]
    obtain ⟨entries, hlists⟩ := exists_lists_of_read htext
    rw [hlists.read_eq] at h
    split at h
    · cases h
    · rename_i hsome
      split at h
      · rename_i hzero
        exact ⟨entries, hlists, hsome, hzero⟩
      · cases h
  · intro ⟨entries, hlists, hsome, hzero⟩
    rw [hlists.read_eq, if_neg hsome, if_pos hzero]

theorem read_eq_ok_iff {bytes : List UInt8} {s : Symbols} :
    read bytes = .ok s ↔
      ∃ entries, Lists bytes entries ∧ (∃ e ∈ entries, e.address ≠ 0) ∧ s = ofEntries entries := by
  constructor
  · intro h
    have htext : read bytes ≠ .error .notText := by simp [h]
    obtain ⟨entries, hlists⟩ := exists_lists_of_read htext
    rw [hlists.read_eq] at h
    split at h
    · cases h
    · split at h
      · cases h
      · rename_i haddress
        cases h
        exact ⟨entries, hlists, by simpa using haddress, rfl⟩
  · intro ⟨entries, hlists, ⟨e, he, haddress⟩, hs⟩
    rw [hlists.read_eq, if_neg (List.ne_nil_of_mem he), if_neg fun hzero => haddress (hzero e he),
      hs]

/-- **Of which lists an address is left.** A list is refused as hidden just if it has entries and
each of them is without an address, and it is accepted just if one of them has an address. A table
with an address comes of it if and only if an entry has one that no entry of the same name before
it is without. -/
theorem hidden_addresses_told (bytes : List UInt8) :
    (read bytes = .error .hidden ↔
      ∃ entries, Lists bytes entries ∧ entries ≠ [] ∧ ∀ e ∈ entries, e.address = 0) ∧
    ((∃ s, read bytes = .ok s) ↔
      ∃ entries, Lists bytes entries ∧ ∃ e ∈ entries, e.address ≠ 0) ∧
    ((∃ s, read bytes = .ok s ∧
        ∃ name address, s.addressOf? name = some address ∧ address ≠ 0) ↔
      ∃ entries, Lists bytes entries ∧ Shows entries) := by
  refine ⟨read_eq_hidden_iff bytes, ⟨?_, ?_⟩, ⟨?_, ?_⟩⟩
  · intro ⟨s, hs⟩
    obtain ⟨entries, hlists, haddress, -⟩ := read_eq_ok_iff.mp hs
    exact ⟨entries, hlists, haddress⟩
  · intro ⟨entries, hlists, haddress⟩
    exact ⟨ofEntries entries, read_eq_ok_iff.mpr ⟨entries, hlists, haddress, rfl⟩⟩
  · intro ⟨s, hs, hleft⟩
    obtain ⟨entries, hlists, -, rfl⟩ := read_eq_ok_iff.mp hs
    exact ⟨entries, hlists, (exists_addressOf?_iff entries).mp hleft⟩
  · intro ⟨entries, hlists, hshows⟩
    exact ⟨ofEntries entries,
      read_eq_ok_iff.mpr ⟨entries, hlists, hshows.exists_address, rfl⟩,
      (exists_addressOf?_iff entries).mpr hshows⟩

/-- Two lines of one name, the first without an address: accepted, and no address is left. -/
theorem masked_accepted :
    let bytes :=
      "0000000000000000 T kfree_skbmem\nffffffff81a01230 T kfree_skbmem\n".toUTF8.data.toList
    ∃ s, read bytes = .ok s ∧ s.addressOf? "kfree_skbmem" = some 0 ∧
      ¬∃ name address, s.addressOf? name = some address ∧ address ≠ 0 := by
  intro bytes
  let masked : List Entry := [⟨"kfree_skbmem", 0⟩, ⟨"kfree_skbmem", 0xffffffff81a01230⟩]
  have hread : readEntries? bytes = some masked := by decide +kernel
  refine ⟨ofEntries masked, by rw [read, hread]; rfl, addressOf?_ofEntries masked _, fun hleft => ?_⟩
  obtain ⟨name, address, hknown, haddress⟩ := hleft
  rw [addressOf?_ofEntries] at hknown
  by_cases hname : "kfree_skbmem" = name
  · have hzero : 0 = address := by simpa [masked, hname] using hknown
    exact haddress hzero.symm
  · simp [masked, hname] at hknown

end Lifeline.Symbols
