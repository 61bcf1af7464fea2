import Lifeline.Proofs.Basics
import Lifeline.Proofs.Text.Integer
import Lifeline.Proofs.Text.Words
import Lifeline.Symbols

/-! What a list of symbols says.

A line tells of a text symbol by its first three words, and whatever else stands on it counts for
nothing (`readLine?_eq_some_iff`). The first line that tells of a name has its address
(`addressOf?_ofEntries`). `listing_read` says what is read of any bytes, and of bytes that tell the
same of every name. -/
namespace Lifeline.Symbols

open Text

/-! ### Lines -/

/-- A line tells of a text symbol: it starts with the address, the type and the name. -/
def Tells (line : List Char) (e : Entry) : Prop :=
  ∃ address digits kind n, StartsWith [address, kind, e.name.toList] line ∧
    (address = digits ∨ address = '+' :: digits) ∧ AreDigits 16 digits n ∧ n < 2 ^ 64 ∧
    e.address = UInt64.ofNat n ∧ (kind = ['t'] ∨ kind = ['T'])

theorem readLine?_eq_some_iff {line : List Char} {e : Entry} :
    readLine? line = some e ↔ Tells line e := by
  simp only [Tells, startsWith_iff_prefix]
  constructor
  · intro h
    unfold readLine? at h
    split at h
    · rename_i address kind name rest hwords
      split at h
      · rename_i hkind
        split at h
        · rename_i n hread
          obtain ⟨digits, hdigits, hnumber, hlimit⟩ :=
            (readNatural_eq_ok_iff (by decide) (by decide)).mp hread
          cases h
          refine ⟨address, digits, kind, n, ⟨rest, ?_⟩, hdigits, hnumber, ?_, rfl, hkind⟩
          · rw [hwords, String.toList_ofList]
            rfl
          · exact Nat.lt_of_le_pred (by decide) hlimit
        · cases h
      · cases h
    · cases h
  · rintro ⟨address, digits, kind, n, ⟨rest, hwords⟩, hdigits, hnumber, hlimit, haddress, hkind⟩
    have hread : readNatural 16 (UInt64.size - 1) address = .ok n :=
      (readNatural_eq_ok_iff (by decide) (by decide)).mpr
        ⟨digits, hdigits, hnumber, Nat.le_pred_of_lt hlimit⟩
    rw [readLine?, ← hwords]
    simp only [List.cons_append, if_pos hkind, hread, String.ofList_toList, ← haddress]

/-! ### Lists of lines -/

/-- The entries of lines, in order; lines that tell of no symbol are passed over. -/
inductive Listed : List String → List Entry → Prop where
  | nil : Listed [] []
  | entry {line : String} {e : Entry} {lines : List String} {entries : List Entry}
      (h : Tells line.toList e) (hrest : Listed lines entries) :
      Listed (line :: lines) (e :: entries)
  | other {line : String} {lines : List String} {entries : List Entry}
      (h : ∀ e, ¬Tells line.toList e) (hrest : Listed lines entries) :
      Listed (line :: lines) entries

/-- The lines of some bytes have these entries. -/
def Lists (bytes : List UInt8) (entries : List Entry) : Prop :=
  ∃ lines : List String, bytes.splitOn 10 = lines.map (·.toUTF8.data.toList) ∧
    Listed lines entries

theorem exists_listed (lines : List String) : ∃ entries, Listed lines entries := by
  induction lines with
  | nil => exact ⟨[], .nil⟩
  | cons line lines ih =>
    obtain ⟨entries, hentries⟩ := ih
    by_cases h : ∃ e, Tells line.toList e
    · obtain ⟨e, he⟩ := h
      exact ⟨e :: entries, .entry he hentries⟩
    · exact ⟨entries, .other (not_exists.mp h) hentries⟩

theorem decodeLine?_toUTF8 (s : String) : decodeLine? s.toUTF8.data.toList = some s.toList := by
  rw [decodeLine?, fromUTF8?_toUTF8]
  rfl

theorem decodeLine?_of_not_valid {line : List UInt8}
    (h : ¬(ByteArray.mk line.toArray).IsValidUTF8) : decodeLine? line = none := by
  rw [decodeLine?, String.fromUTF8?, dif_neg h]
  rfl

theorem Lists.readEntries?_eq {bytes : List UInt8} {entries : List Entry}
    (h : Lists bytes entries) : readEntries? bytes = some entries := by
  obtain ⟨lines, hlines, hlisted⟩ := h
  rw [readEntries?, hlines]
  clear hlines
  induction hlisted with
  | nil => rfl
  | entry h _ ih =>
    rw [List.map_cons, List.foldr_cons, ih, decodeLine?_toUTF8]
    simp only [readLine?_eq_some_iff.mpr h]
    rfl
  | other h _ ih =>
    rw [List.map_cons, List.foldr_cons, ih, decodeLine?_toUTF8]
    simp only [Option.eq_none_iff_forall_ne_some.mpr fun e he => h e (readLine?_eq_some_iff.mp he)]
    rfl

theorem exists_lists {bytes : List UInt8}
    (h : ∀ line ∈ bytes.splitOn 10, (ByteArray.mk line.toArray).IsValidUTF8) :
    ∃ entries, Lists bytes entries := by
  have hlines : ∃ lines : List String,
      bytes.splitOn 10 = lines.map (·.toUTF8.data.toList) := by
    generalize bytes.splitOn 10 = pieces at h
    induction pieces with
    | nil => exact ⟨[], rfl⟩
    | cons piece pieces ih =>
      obtain ⟨hpiece, hrest⟩ := List.forall_mem_cons.mp h
      obtain ⟨lines, rfl⟩ := ih hrest
      exact ⟨.fromUTF8 _ hpiece :: lines, rfl⟩
  obtain ⟨lines, hlines⟩ := hlines
  obtain ⟨entries, hlisted⟩ := exists_listed lines
  exact ⟨entries, lines, hlines, hlisted⟩

theorem readEntries?_of_not_valid {bytes : List UInt8}
    (h : ∃ line ∈ bytes.splitOn 10, ¬(ByteArray.mk line.toArray).IsValidUTF8) :
    readEntries? bytes = none := by
  rw [readEntries?]
  generalize bytes.splitOn 10 = pieces at h
  induction pieces with
  | nil => simp at h
  | cons piece pieces ih =>
    rw [List.foldr_cons]
    obtain hpiece | hlater := (List.exists_mem_cons_iff ..).mp h
    · rw [decodeLine?_of_not_valid hpiece]
    · rw [ih hlater]
      cases decodeLine? piece <;> rfl

/-! ### Names -/

theorem getElem?_foldl_insertIfNew (entries : List Entry)
    (known : Std.ExtTreeMap String Address compare) (name : String) :
    (entries.foldl (fun t e => t.insertIfNew e.name e.address) known)[name]? =
      known[name]?.or ((entries.find? (·.name == name)).map (·.address)) := by
  induction entries generalizing known with
  | nil => simp
  | cons e rest ih =>
    rw [List.foldl_cons, ih, Std.ExtTreeMap.getElem?_insertIfNew]
    by_cases hname : e.name = name
    · subst hname
      by_cases hknown : e.name ∈ known <;> simp [hknown]
    · simp [hname]

/-- A name has the address of its first entry. -/
theorem addressOf?_ofEntries (entries : List Entry) (name : String) :
    (ofEntries entries).addressOf? name =
      (entries.find? (·.name == name)).map (·.address) := by
  rw [addressOf?, ofEntries, getElem?_foldl_insertIfNew, Std.ExtTreeMap.getElem?_empty,
    Option.none_or]

theorem mem_addresses_ofEntries {entries : List Entry} {name : String} :
    name ∈ (ofEntries entries).addresses ↔ name ∈ entries.map (·.name) := by
  rw [← Std.ExtTreeMap.isSome_getElem?_iff_mem]
  change ((ofEntries entries).addressOf? name).isSome = true ↔ _
  rw [addressOf?_ofEntries, Option.isSome_map, List.find?_isSome, List.mem_map]
  exact exists_congr fun e => and_congr_right fun _ => beq_iff_eq

/-- There are as many names as the entries have. -/
theorem size_ofEntries (entries : List Entry) :
    (ofEntries entries).size = (entries.map (·.name)).eraseDups.length := by
  rw [size, ← Std.ExtTreeMap.length_keys]
  refine List.Perm.length_eq ((List.perm_ext_iff_of_nodup Std.ExtTreeMap.nodup_keys
    (nodup_eraseDups _)).mpr fun name => ?_)
  rw [Std.ExtTreeMap.mem_keys, mem_addresses_ofEntries, List.mem_eraseDups]

/-- Only the order of entries of one name matters. -/
theorem ofEntries_congr {entries entries' : List Entry}
    (h : ∀ name, entries'.filter (·.name == name) = entries.filter (·.name == name)) :
    ofEntries entries' = ofEntries entries := by
  refine congrArg Symbols.mk (Std.ExtTreeMap.ext_getElem? fun name => ?_)
  change (ofEntries entries').addressOf? name = (ofEntries entries).addressOf? name
  rw [addressOf?_ofEntries, addressOf?_ofEntries, ← List.head?_filter, h name, List.head?_filter]

theorem mem_iff_of_filter {entries entries' : List Entry}
    (h : ∀ name, entries'.filter (·.name == name) = entries.filter (·.name == name)) (e : Entry) :
    e ∈ entries' ↔ e ∈ entries := by
  have hmem (l : List Entry) : e ∈ l ↔ e ∈ l.filter (·.name == e.name) := by simp
  rw [hmem entries', h e.name, ← hmem entries]

/-- **A list of symbols is read as its lines tell.** Bytes that are not text line by line are
refused. Else their lines have entries; there is no symbol if there are no entries, the addresses
are hidden if all of them are zero, and otherwise each name has the address of its first entry and
there are as many names as the entries have. Bytes whose entries of each name are the same are read
alike, whatever else their lines hold. -/
theorem listing_read (bytes : List UInt8) :
    ((∃ line ∈ bytes.splitOn 10, ¬(ByteArray.mk line.toArray).IsValidUTF8) →
      read bytes = .error .notText) ∧
    ((∀ line ∈ bytes.splitOn 10, (ByteArray.mk line.toArray).IsValidUTF8) →
      ∃ entries, Lists bytes entries) ∧
    ∀ entries, Lists bytes entries →
      (entries = [] ∧ read bytes = .error .noTextSymbol ∨
        entries ≠ [] ∧ (∀ e ∈ entries, e.address = 0) ∧ read bytes = .error .hidden ∨
        (∃ e ∈ entries, e.address ≠ 0) ∧ ∃ s, read bytes = .ok s ∧
          (∀ name, s.addressOf? name = (entries.find? (·.name == name)).map (·.address)) ∧
          s.size = (entries.map (·.name)).eraseDups.length) ∧
      ∀ bytes' entries', Lists bytes' entries' →
        (∀ name, entries'.filter (·.name == name) = entries.filter (·.name == name)) →
          read bytes' = read bytes := by
  refine ⟨fun hline => ?_, exists_lists, fun entries hlists => ⟨?_, ?_⟩⟩
  · rw [read, readEntries?_of_not_valid hline]
  · simp only [read, hlists.readEntries?_eq]
    by_cases hnone : entries = []
    · exact .inl ⟨hnone, if_pos hnone⟩
    rw [if_neg hnone]
    by_cases hzero : ∀ e ∈ entries, e.address = 0
    · exact .inr (.inl ⟨hnone, hzero, if_pos (by simpa using hzero)⟩)
    · refine .inr (.inr ⟨by simpa using hzero, _, if_neg (by simpa using hzero),
        addressOf?_ofEntries entries, size_ofEntries entries⟩)
  · intro bytes' entries' hlists' hsame
    have hmem := mem_iff_of_filter hsame
    have hnone : entries' = [] ↔ entries = [] := by
      simp only [List.eq_nil_iff_forall_not_mem, hmem]
    have hzero : entries'.all (·.address == 0) = entries.all (·.address == 0) := by
      rw [Bool.eq_iff_iff]
      simp only [List.all_eq_true, hmem]
    simp only [read, hlists.readEntries?_eq, hlists'.readEntries?_eq, hnone, hzero,
      ofEntries_congr hsame]

/-- A byte that is no text; no bytes at all; and a symbol with and without more around it. -/
theorem listing_read_of_symbol :
    let bytes := "+2a t f [m]\nno symbol".toUTF8.data.toList
    let bytes' := "2A\tT f".toUTF8.data.toList
    read [0xFF] = .error .notText ∧ (∃ entries, Lists [] entries) ∧
      (∃ s, read bytes = .ok s ∧ s.addressOf? "f" = some 42) ∧ read bytes' = read bytes := by
  intro bytes bytes'
  have hother (e : Entry) : ¬Tells "no symbol".toList e := by
    have hnone : readLine? "no symbol".toList = none := by decide +kernel
    rw [← readLine?_eq_some_iff, hnone]
    exact nofun
  have hlists : Lists bytes [⟨"f", 42⟩] :=
    ⟨["+2a t f [m]", "no symbol"], by decide +kernel,
      .entry (readLine?_eq_some_iff.mp (by decide +kernel)) (.other hother .nil)⟩
  have hlists' : Lists bytes' [⟨"f", 42⟩] :=
    ⟨["2A\tT f"], by decide +kernel, .entry (readLine?_eq_some_iff.mp (by decide +kernel)) .nil⟩
  refine ⟨(listing_read [0xFF]).1 ⟨[0xFF], by decide, by decide +kernel⟩,
    (listing_read []).2.1 (by decide +kernel), ?_,
    ((listing_read bytes).2.2 _ hlists).2 bytes' _ hlists' fun _ => rfl⟩
  obtain ⟨hnil, -⟩ | ⟨-, hzero, -⟩ | ⟨-, s, hs, haddress, -⟩ :=
    ((listing_read bytes).2.2 _ hlists).1
  · cases hnil
  · exact absurd (hzero _ List.mem_cons_self) (by decide)
  · exact ⟨s, hs, haddress "f"⟩

end Lifeline.Symbols
