import Lifeline.Json.Read
import Lifeline.Proofs.Basics
import Lifeline.Proofs.Json.Layout

/-! Typed values read from what was written.

A value of a known type is read back if its parts are: numbers and texts are (`readUInt64_number`,
`readText_text`), and so are lists and maps of what is (`readList_array`, `readMembers_object`).
A record is read field by field whatever the order of its members (`Shape.readNamed_eq`); one that
was written in the order of its fields is read in that order (`Shape.read_object`). -/
namespace Lifeline.Json

/-! ### Plain values -/

theorem Range.read_ofNat {range : Range} {n : Nat} (hfits : n < UInt64.size)
    (hleast : range.least ≤ n) (hgreatest : n ≤ range.greatest) :
    range.read (.ofNat n) = .ok n := by
  rw [Range.read, Numeral.quantity?_ofNat hfits]
  exact if_pos ⟨hleast, hgreatest⟩

theorem Range.read_u64 (n : UInt64) : Range.u64.read (.ofNat n.toNat) = .ok n.toNat := by
  have hfits : n.toNat < UInt64.size := n.toNat_lt
  exact read_ofNat hfits (Int.natCast_nonneg _) (by simp only [u64]; omega)

theorem Range.read_u32 (n : UInt32) : Range.u32.read (.ofNat n.toNat) = .ok n.toNat := by
  have hfits : n.toNat < UInt32.size := n.toNat_lt
  exact read_ofNat (Nat.lt_trans hfits (by decide)) (Int.natCast_nonneg _)
    (by simp only [u32]; omega)

@[simp]
theorem readUInt64_number (n : UInt64) : readUInt64 (Value.number n.toNat).outline = .ok n := by
  have hread : readInteger .u64 (Value.number n.toNat).outline = .ok n.toNat := Range.read_u64 n
  rw [readUInt64, hread]
  exact congrArg Except.ok UInt64.ofNat_toNat

@[simp]
theorem readUInt32_number (n : UInt32) : readUInt32 (Value.number n.toNat).outline = .ok n := by
  have hread : readInteger .u32 (Value.number n.toNat).outline = .ok n.toNat := Range.read_u32 n
  rw [readUInt32, hread]
  exact congrArg Except.ok UInt32.ofNat_toNat

@[simp]
theorem readText_text (s : String) : readText (Value.text s).outline = .ok s :=
  (quoted_escape s.toList).readRaw_eq

@[simp]
theorem readBool_bool (b : Bool) : readBool (Value.bool b).outline = .ok b :=
  rfl

theorem readOption_number (n : UInt32) :
    readOption readUInt32 (Value.number n.toNat).outline = .ok (some n) := by
  change (readUInt32 (Value.number n.toNat).outline).map some = _
  rw [readUInt32_number]
  rfl

theorem readText_key (name : String) : (Value.key name).readText = .ok name :=
  (quoted_escape name.toList).readRaw_eq

theorem Key.readInteger_of_take {range : Range} {key : Key} {numeral : Numeral} {value : Int}
    (htake : Numeral.take? key.raw = some (numeral, [])) (hwhole : key.isWhole = true)
    (h : range.read numeral = .ok value) : key.readInteger range = .ok value := by
  rw [readInteger, htake]
  simp only [h, hwhole]
  rfl

/-- A name that is a number is read as the number. -/
theorem readUInt32_key (n : UInt32) : (Value.key n.toNat.repr).readUInt32 = .ok n := by
  have hraw : (Value.key n.toNat.repr).raw = Nat.toDigits 10 n.toNat := by
    rw [Value.key, Nat.toList_repr, escape_of_isDigit (Numeral.isDigit_toDigits _)]
  have htake : Numeral.take? (Value.key n.toNat.repr).raw = some (.ofNat n.toNat, []) := by
    have hdigits := Numeral.take?_toDigits n.toNat Numeral.ends_nil
    rwa [List.append_nil, ← hraw] at hdigits
  rw [Key.readUInt32, Key.readInteger_of_take htake rfl (Range.read_u32 n)]
  exact congrArg Except.ok UInt32.ofNat_toNat

/-! ### Containers -/

theorem mapM_map_ok {α β ε : Type} {read : β → Except ε α} {write : α → β} {l : List α}
    (h : ∀ a ∈ l, read (write a) = .ok a) : (l.map write).mapM read = .ok l :=
  mapM_eq_ok_of_forall₂ (List.forall₂_map_right_iff.mpr (List.forall₂_same.mpr h))

/-- A list is read back if its items are. -/
theorem readList_array {α : Type} {read : Outline → Reading α} {write : α → Value} {l : List α}
    (h : ∀ a ∈ l, read (write a).outline = .ok a) :
    readList read (Value.array (l.map write)).outline = .ok l := by
  have hitems : (l.map (Value.outline ∘ write)).mapM read = .ok l := mapM_map_ok h
  rw [Value.outline_array, readList, List.map_map, hitems]
  rfl

/-- A map is read back if its names and values are. -/
theorem readMembers_object {κ ν : Type} {readKey : Key → Reading κ}
    {readValue : Outline → Reading ν} {name : κ → String} {write : ν → Value}
    (hkey : ∀ k, readKey (Value.key (name k)) = .ok k)
    (hvalue : ∀ v, readValue (write v).outline = .ok v) (entries : List (κ × ν)) :
    readMembers readKey readValue
      (Value.object (entries.map fun e => (name e.1, write e.2))).outline = .ok entries := by
  rw [Value.outline_object, readMembers, List.map_map, mapM_map_ok]
  · rfl
  · rintro ⟨k, v⟩ -
    simp only [Function.comp_apply, hkey, hvalue]
    rfl

/-! ### Records -/

namespace Shape

variable {δ α : Type} {shape : Shape δ α}

theorem find?_name {fields : List (Field δ)} (hnames : (fields.map (·.name)).Nodup)
    {field : Field δ} (h : field ∈ fields) :
    fields.find? (·.name == field.name) = some field := by
  induction fields with
  | nil => exact absurd h List.not_mem_nil
  | cons first rest ih =>
    rw [List.map_cons, List.nodup_cons] at hnames
    obtain ⟨hfirst, hrest⟩ := hnames
    obtain rfl | hmem := List.mem_cons.mp h
    · exact List.find?_cons_of_pos (beq_self_eq_true _)
    · have hne : first.name ≠ field.name :=
        fun heq => hfirst (heq ▸ List.mem_map_of_mem hmem)
      rw [List.find?_cons_of_neg (by simpa using hne)]
      exact ih hrest hmem

/-- Members that give fields once are read one after the other, in whatever order. -/
theorem readNamed_eq (hnames : (shape.fields.map (·.name)).Nodup)
    {given : List (Field δ × Key × Outline)} {seen : List String}
    (hgiven : ∀ g ∈ given, g.1 ∈ shape.fields ∧ g.2.1.readText = .ok g.1.name)
    (honce : (given.map (·.1.name)).Nodup) (hnew : ∀ g ∈ given, g.1.name ∉ seen) (draft : δ) :
    shape.readNamed seen draft (given.map (·.2)) =
      given.foldlM (fun d g => g.1.read g.2.2 d) draft := by
  induction given generalizing seen draft with
  | nil => rfl
  | cons first rest ih =>
    obtain ⟨field, key, value⟩ := first
    obtain ⟨⟨hfield, hkey⟩, hrest⟩ := List.forall_mem_cons.mp hgiven
    obtain ⟨hunseen, hunseen'⟩ := List.forall_mem_cons.mp hnew
    rw [List.map_cons, List.nodup_cons] at honce
    obtain ⟨hfirst, honce'⟩ := honce
    have hnew' : ∀ g ∈ rest, g.1.name ∉ field.name :: seen := by
      intro g hg hmem
      obtain heq | hmem := List.mem_cons.mp hmem
      · exact hfirst (heq ▸ List.mem_map_of_mem hg)
      · exact hunseen' g hg hmem
    have hrest' (draft : δ) := ih hrest honce' hnew' draft
    rw [List.map_cons, readNamed, hkey, List.foldlM_cons]
    simp only [bind, Except.bind, find?_name hnames hfield, if_neg hunseen, hrest']

theorem name_of_mem_zip {fields : List (Field δ)} {members : List (String × Value)}
    (h : members.map (·.1) <+: fields.map (·.name)) :
    ∀ g ∈ fields.zip members, g.2.1 = g.1.name := by
  induction fields generalizing members with
  | nil => simp
  | cons field fields ih =>
    cases members with
    | nil => simp
    | cons member members =>
      obtain ⟨hname, hrest⟩ := List.cons_prefix_cons.mp h
      exact List.forall_mem_cons.mpr ⟨hname, ih hrest⟩

/-- Members in the order of the fields, as far as they go, are read in that order. -/
theorem read_object (hnames : (shape.fields.map (·.name)).Nodup) {members : List (String × Value)}
    (h : members.map (·.1) <+: shape.fields.map (·.name)) :
    shape.read (Value.object members).outline =
      (shape.fields.zip members).foldlM (fun d g => g.1.read g.2.2.outline d) shape.blank >>=
        shape.finish := by
  let given : List (Field δ × Key × Outline) :=
    (shape.fields.zip members).map fun g => (g.1, Value.key g.2.1, g.2.2.outline)
  have hname := name_of_mem_zip h
  have hall : (shape.fields.zip members).map (·.2) = members :=
    List.map_snd_zip (by simpa using h.length_le)
  have hmembers : given.map (·.2) = members.map fun m => (Value.key m.1, m.2.outline) := by
    rw [List.map_map]
    conv_rhs => rw [← hall, List.map_map]
    rfl
  have honce : (given.map (·.1.name)).Nodup := by
    have heq : given.map (·.1.name) = members.map (·.1) := by
      rw [List.map_map]
      conv_rhs => rw [← hall, List.map_map]
      exact List.map_congr_left fun g hg => (hname g hg).symm
    exact heq ▸ h.sublist.nodup hnames
  have hgiven : ∀ g ∈ given, g.1 ∈ shape.fields ∧ g.2.1.readText = .ok g.1.name := by
    refine List.forall_mem_map.mpr fun g hg => ⟨(List.of_mem_zip hg).1, ?_⟩
    rw [readText_key, hname g hg]
  rw [Value.outline_object, read, ← hmembers,
    readNamed_eq hnames hgiven honce (fun g _ => List.not_mem_nil), List.foldlM_map]
  rfl

end Shape

end Lifeline.Json
