import Lifeline.Probe.ConfigFile
import Lifeline.Proofs.Json.Record
import Lifeline.Proofs.Json.Spelling

/-! What the text of a configuration file says.

A text may spell its names and texts as it likes, put its fields in any order, and leave out what is
as it would be anyway. It is read as the file that it tells (`Spec.read_of_isToldBy` of each probe),
and it is refused for anything that no file has: a field of another name or named twice, a probe
without a symbol, a position that is no signed byte (`Spec.not_read_of_isFaulty`).
`files_read_as_told` has both for the bytes of a file. -/
namespace Lifeline.Probe

open Json

/-! ### Positions -/

theorem readInt8_ofInt (n : Int8) : readInt8 (.number (.ofInt n.toInt)) = .ok n := by
  have hleast := n.le_toInt
  have hgreatest := n.toInt_lt
  have hword : 128 ≤ UInt64.size / 2 := by decide
  have hread : Range.i8.read (.ofInt n.toInt) = .ok n.toInt := by
    rw [Range.read, Numeral.quantity?, Numeral.integer?_ofInt (by omega) (by omega)]
    exact if_pos ⟨hleast, by simp only [Range.i8]; omega⟩
  rw [readInt8, readInteger, hread]
  exact congrArg Except.ok (Int8.ofInt_toInt n)

/-- A position is not read if it is no signed byte, however far from one. -/
theorem fits_of_readInt8 {n : Int} {position : Int8}
    (h : readInt8 (.number (.ofInt n)) = .ok position) : -128 ≤ n ∧ n ≤ 127 := by
  obtain ⟨value, hread, -⟩ := map_eq_ok.mp h
  change Range.i8.read (.ofInt n) = .ok value at hread
  unfold Range.read Numeral.quantity? at hread
  cases hinteger : (Numeral.ofInt n).integer? with
  | some worth =>
    rw [hinteger] at hread
    simp only at hread
    split at hread
    · rename_i hfits
      exact Numeral.eq_of_integer?_ofInt hinteger ▸ hfits
    · cases hread
  | none =>
    rw [hinteger] at hread
    cases hmagnitude : (Numeral.ofInt n).magnitude? <;> rw [hmagnitude] at hread <;> cases hread

/-! ### Texts of a file -/

/-- A text, in any spelling. -/
def IsText (s : String) (t : Tree) : Prop :=
  ∃ raw, t = .text raw ∧ Quoted raw s.toList

/-- A position in plain decimal. -/
def IsPosition (position : Int8) (t : Tree) : Prop :=
  t = .number (.ofInt position.toInt)

namespace Spec

/-- The fields of a probe. -/
def names : List String :=
  ["symbol", "sk_buff", "skb_drop_reason", "free", "inv_head"]

theorem nodup_names : names.Nodup := by
  decide +kernel

/-- What the members of a probe say. -/
def told (p : Spec) : List Told :=
  [ ⟨"symbol", IsText p.symbol, False⟩,
    ⟨"sk_buff", IsPosition p.skBuff, p.skBuff = 0⟩,
    ⟨"skb_drop_reason", fun t =>
      match p.dropReason with
      | none => t = .null
      | some position => IsPosition position t, p.dropReason = none⟩,
    ⟨"free", (· = .bool p.free), p.free = false⟩,
    ⟨"inv_head", (· = .bool p.invHead), p.invHead = false⟩ ]

/-- An object of a probe. -/
def IsToldBy (p : Spec) (t : Tree) : Prop :=
  ∃ members, t = .object members ∧ Tells p.told members

/-- What reading a field of a probe puts into the draft. -/
def put (p : Spec) (field : String) (d : SpecDraft) : SpecDraft :=
  if field = "symbol" then { d with symbol := some p.symbol }
  else if field = "sk_buff" then { d with skBuff := p.skBuff }
  else if field = "skb_drop_reason" then { d with dropReason := p.dropReason }
  else if field = "free" then { d with free := p.free }
  else { d with invHead := p.invHead }

theorem read_of_told (p : Spec) : ∀ f ∈ p.told, ∃ field ∈ shape.fields, field.name = f.name ∧
    ∀ t d, f.means t → field.read t.outline d = .ok (p.put f.name d) := by
  simp only [told, List.forall_mem_cons]
  refine ⟨⟨_, .head _, rfl, ?_⟩, ⟨_, .tail _ (.head _), rfl, ?_⟩,
    ⟨_, .tail _ (.tail _ (.head _)), rfl, ?_⟩, ⟨_, .tail _ (.tail _ (.tail _ (.head _))), rfl, ?_⟩,
    ⟨_, .tail _ (.tail _ (.tail _ (.tail _ (.head _)))), rfl, ?_⟩, fun _ hf => nomatch hf⟩
  · rintro _ d ⟨raw, rfl, hraw⟩
    change (do return { d with symbol := some (← readText (.text raw)) } : Reading SpecDraft) = _
    rw [readText, hraw.readRaw_eq]
    rfl
  · rintro _ d rfl
    change (do return { d with skBuff := ← readInt8 (.number _) } : Reading SpecDraft) = _
    rw [readInt8_ofInt]
    rfl
  · intro t d ht
    change (do return { d with dropReason := ← readOption readInt8 t.outline } :
      Reading SpecDraft) = .ok { d with dropReason := p.dropReason }
    cases hreason : p.dropReason with
    | none =>
      obtain rfl : t = .null := by simpa only [hreason] using ht
      rfl
    | some position =>
      obtain rfl : t = .number (.ofInt position.toInt) := by
        simpa only [hreason, IsPosition] using ht
      change (do return { d with dropReason := ← (readInt8 (.number _)).map some } :
        Reading SpecDraft) = _
      rw [readInt8_ofInt]
      rfl
  · rintro _ d rfl
    rfl
  · rintro _ d rfl
    rfl

theorem put_comm (p : Spec) : ∀ f ∈ p.told, ∀ g ∈ p.told, ∀ d,
    p.put g.name (p.put f.name d) = p.put f.name (p.put g.name d) := by
  intro f hf g hg d
  simp only [told, List.mem_cons, List.not_mem_nil, or_false] at hf hg
  rcases hf with rfl | rfl | rfl | rfl | rfl <;> rcases hg with rfl | rfl | rfl | rfl | rfl <;> rfl

theorem put_of_canLack (p : Spec) : ∀ f ∈ p.told, f.canLack →
    p.put f.name shape.blank = shape.blank := by
  simp only [told, List.forall_mem_cons]
  refine ⟨False.elim, ?_, ?_, ?_, ?_, fun _ hf => nomatch hf⟩ <;> intro h <;>
    simp [put, shape, h]

theorem readNamed_of_isToldBy (p : Spec) {members : List (List Char × Tree)}
    (h : Tells p.told members) :
    shape.readNamed [] shape.blank (Tree.outlineMembers members) =
      .ok ⟨some p.symbol, p.skBuff, p.dropReason, p.free, p.invHead⟩ := by
  have htold : (p.told.map (·.name)).Nodup := nodup_names
  have hread := shape.readNamed_of_tells nodup_names htold p.read_of_told p.put_comm
    p.put_of_canLack h
  exact hread

/-- A probe is read from any object that tells it. -/
theorem read_of_isToldBy {p : Spec} {t : Tree} (h : p.IsToldBy t) :
    shape.read t.outline = .ok p := by
  obtain ⟨members, rfl, htells⟩ := h
  rw [Tree.outline, Shape.read, p.readNamed_of_isToldBy htells]
  rfl

/-- No probe has these members: one of another name, two of one name, none for the symbol, or a
position that is no signed byte. -/
def IsFaulty (members : List (List Char × Tree)) : Prop :=
  Misnamed names members ∨ (∀ m ∈ members, ¬Quoted m.1 "symbol".toList) ∨
    ∃ m ∈ members, ∃ n, m.2 = .number (.ofInt n) ∧ (n < -128 ∨ 127 < n) ∧
      (Quoted m.1 "sk_buff".toList ∨ Quoted m.1 "skb_drop_reason".toList)

theorem symbol_of_read {members : List (List Char × Tree)} {d : SpecDraft}
    (hraw : ∀ m ∈ members, Between m.1) (hnone : ∀ m ∈ members, ¬Quoted m.1 "symbol".toList)
    (h : shape.readNamed [] shape.blank (Tree.outlineMembers members) = .ok d) :
    d.symbol = none := by
  refine Shape.keeps_of_readNamed (P := (·.symbol = none)) rfl hraw h ?_ rfl
  simp only [shape, List.forall_mem_cons]
  refine ⟨fun ⟨m, hm, hname⟩ => absurd hname (hnone m hm), ?_, ?_, ?_, ?_, fun _ hf => nomatch hf⟩
  all_goals
    intro _ o before after hread hbefore
    obtain ⟨value, -, hafter⟩ := bind_eq_ok.mp hread
    exact Except.ok.inj hafter ▸ hbefore

theorem not_read_of_isFaulty {members : List (List Char × Tree)}
    (hraw : ∀ m ∈ members, Between m.1) (h : IsFaulty members) (p : Spec) :
    shape.read (Tree.object members).outline ≠ .ok p := by
  intro hread
  rw [Tree.outline, Shape.read] at hread
  obtain ⟨d, hnamed, hfinish⟩ := bind_eq_ok.mp hread
  rcases h with hmisnamed | hnone | ⟨m, hm, n, hvalue, hrange, hname⟩
  · exact Shape.not_misnamed_of_readNamed rfl hraw hnamed hmisnamed
  · have hsymbol := symbol_of_read hraw hnone hnamed
    obtain ⟨_, -, hfinish⟩ := bind_eq_ok.mp hfinish
    obtain ⟨symbol, hrequired, -⟩ := bind_eq_ok.mp hfinish
    rw [hsymbol] at hrequired
    cases hrequired
  · have hfits : ∃ position, readInt8 (.number (.ofInt n)) = .ok position := by
      rcases hname with hname | hname
      · obtain ⟨before, after, hvalue'⟩ := shape.read_of_readNamed nodup_names rfl hnamed
          hm (.tail _ (.head _)) hname
        rw [hvalue] at hvalue'
        obtain ⟨position, hposition, -⟩ := bind_eq_ok.mp hvalue'
        exact ⟨position, hposition⟩
      · obtain ⟨before, after, hvalue'⟩ := shape.read_of_readNamed nodup_names rfl hnamed
          hm (.tail _ (.tail _ (.head _))) hname
        rw [hvalue] at hvalue'
        obtain ⟨_, hreason, -⟩ := bind_eq_ok.mp hvalue'
        obtain ⟨position, hposition, -⟩ := map_eq_ok.mp hreason
        exact ⟨position, hposition⟩
    obtain ⟨position, hposition⟩ := hfits
    have hrange' := fits_of_readInt8 hposition
    omega

end Spec

namespace ConfigFile

/-- The fields of a file. -/
def names : List String :=
  ["replace_defaults", "probes"]

theorem nodup_names : names.Nodup := by
  decide +kernel

/-- What the members of a file say. -/
def told (file : ConfigFile) : List Told :=
  [ ⟨"replace_defaults", (· = .bool file.replaceDefaults), file.replaceDefaults = false⟩,
    ⟨"probes", fun t => ∃ items, t = .array items ∧ List.Forall₂ Spec.IsToldBy file.probes items,
      file.probes = []⟩ ]

/-- An object of a file. -/
def IsToldBy (file : ConfigFile) (t : Tree) : Prop :=
  ∃ members, t = .object members ∧ Tells file.told members

/-- What reading a field of a file puts into the draft. -/
def put (file : ConfigFile) (field : String) (d : ConfigFile) : ConfigFile :=
  if field = "replace_defaults" then { d with replaceDefaults := file.replaceDefaults }
  else { d with probes := file.probes }

theorem readList_of_isToldBy {probes : List Spec} {items : List Tree}
    (h : List.Forall₂ Spec.IsToldBy probes items) :
    readList Spec.shape.read (Tree.array items).outline = .ok probes := by
  have hread : (items.map Tree.outline).mapM Spec.shape.read = .ok probes :=
    mapM_eq_ok_of_forall₂ (List.forall₂_map_right_iff.mpr (h.imp fun _ _ => Spec.read_of_isToldBy))
  rw [Tree.outline, Tree.outlineItems_eq_map, readList, hread]
  rfl

theorem read_of_told (file : ConfigFile) : ∀ f ∈ file.told, ∃ field ∈ shape.fields,
    field.name = f.name ∧ ∀ t d, f.means t → field.read t.outline d = .ok (file.put f.name d) := by
  simp only [told, List.forall_mem_cons]
  refine ⟨⟨_, .head _, rfl, ?_⟩, ⟨_, .tail _ (.head _), rfl, ?_⟩, fun _ hf => nomatch hf⟩
  · rintro _ d rfl
    rfl
  · rintro _ d ⟨items, rfl, hitems⟩
    change (do return { d with probes := ← readList Spec.shape.read _ } : Reading ConfigFile) = _
    rw [readList_of_isToldBy hitems]
    rfl

theorem put_comm (file : ConfigFile) : ∀ f ∈ file.told, ∀ g ∈ file.told, ∀ d,
    file.put g.name (file.put f.name d) = file.put f.name (file.put g.name d) := by
  intro f hf g hg d
  simp only [told, List.mem_cons, List.not_mem_nil, or_false] at hf hg
  rcases hf with rfl | rfl <;> rcases hg with rfl | rfl <;> rfl

theorem put_of_canLack (file : ConfigFile) : ∀ f ∈ file.told, f.canLack →
    file.put f.name shape.blank = shape.blank := by
  simp only [told, List.forall_mem_cons]
  refine ⟨?_, ?_, fun _ hf => nomatch hf⟩ <;> intro h <;> simp [put, shape, h]

/-- A file is read from any object that tells it. -/
theorem read_of_isToldBy {file : ConfigFile} {t : Tree} (h : file.IsToldBy t) :
    shape.read t.outline = .ok file := by
  obtain ⟨members, rfl, htells⟩ := h
  have htold : (file.told.map (·.name)).Nodup := nodup_names
  have hread := shape.readNamed_of_tells nodup_names htold file.read_of_told file.put_comm
    file.put_of_canLack htells
  rw [Tree.outline, Shape.read, hread]
  rfl

/-- No file has these members: one of another name, two of one name, or a probe that is none. -/
def IsFaulty (members : List (List Char × Tree)) : Prop :=
  Misnamed names members ∨
    ∃ m ∈ members, Quoted m.1 "probes".toList ∧
      ∃ items, m.2 = .array items ∧ ∃ probe, .object probe ∈ items ∧ Spec.IsFaulty probe

theorem not_read_of_isFaulty {members : List (List Char × Tree)}
    (hraw : ∀ raw, .text raw ∈ (Tree.object members).tokens → Between raw)
    (h : IsFaulty members) (file : ConfigFile) :
    shape.read (Tree.object members).outline ≠ .ok file := by
  intro hread
  rw [Tree.outline, Shape.read] at hread
  obtain ⟨d, hnamed, -⟩ := bind_eq_ok.mp hread
  have hmember {m : List Char × Tree} (hm : m ∈ members) {t : Token}
      (ht : t ∈ .text m.1 :: .colon :: m.2.tokens) : t ∈ (Tree.object members).tokens :=
    .tail _ (List.mem_append_left _ (Tree.tokens_subset_memberTokens hm ht))
  rcases h with hmisnamed | ⟨m, hm, hname, items, hvalue, probe, hprobe, hfaulty⟩
  · exact Shape.not_misnamed_of_readNamed rfl
      (fun m hm => hraw m.1 (hmember hm List.mem_cons_self)) hnamed hmisnamed
  · obtain ⟨before, after, hfield⟩ := shape.read_of_readNamed nodup_names rfl hnamed hm
      (.tail _ (.head _)) hname
    obtain ⟨probes, hprobes, -⟩ := bind_eq_ok.mp hfield
    rw [hvalue, Tree.outline, Tree.outlineItems_eq_map, readList] at hprobes
    obtain ⟨values, hvalues, -⟩ := bind_eq_ok.mp hprobes
    obtain ⟨p, hp⟩ := exists_of_mapM_eq_ok hvalues (List.mem_map_of_mem hprobe)
    refine Spec.not_read_of_isFaulty (fun inner hinner => hraw inner.1 (hmember hm ?_)) hfaulty p hp
    have hitem : .text inner.1 ∈ (Tree.object probe).tokens :=
      .tail _ (List.mem_append_left _ (Tree.tokens_subset_memberTokens hinner List.mem_cons_self))
    rw [hvalue]
    exact .tail _ (.tail _ (.tail _ (List.mem_append_left _
      (Tree.tokens_subset_itemTokens hprobe hitem))))

theorem load_toUTF8 (text : List Char) :
    load (.ok (String.ofList text).toUTF8.data.toList) =
      ((Document.ofText text).read shape.read).mapError .rejected := by
  rw [load, fromUTF8?_toUTF8]
  simp only [ofText, String.toList_ofList]
  cases (Document.ofText text).read shape.read <;> rfl

end ConfigFile

/-- **A configuration file is read from every text that tells it, and from none that says what no
file has.** Names and texts may be spelled with any escapes, the fields may stand in any order,
what is as it would be anyway may be left out, and white space may stand anywhere between. A name
that is not known or comes twice, a probe without a symbol and a position that is no signed byte are
refused whatever else is said. -/
theorem files_read_as_told :
    (∀ (file : ConfigFile) (t : Tree) (text : List Char), file.IsToldBy t → Written t.tokens text →
      ConfigFile.load (.ok (String.ofList text).toUTF8.data.toList) = .ok file) ∧
    ∀ (members : List (List Char × Tree)) (text : List Char), ConfigFile.IsFaulty members →
      Written (Tree.object members).tokens text →
        ∃ reason, ConfigFile.load (.ok (String.ofList text).toUTF8.data.toList) =
          .error (.rejected reason) := by
  constructor
  · intro file t text htold hwritten
    rw [ConfigFile.load_toUTF8, hwritten.ofText_eq, Document.read,
      ConfigFile.read_of_isToldBy htold]
    rfl
  · intro members text hfaulty hwritten
    have hrefused := ConfigFile.not_read_of_isFaulty (fun raw => hwritten.between) hfaulty
    rw [ConfigFile.load_toUTF8, hwritten.ofText_eq, Document.read]
    cases hread : ConfigFile.shape.read (Tree.object members).outline with
    | ok file => exact absurd hread (hrefused file)
    | error reason => exact ⟨reason, rfl⟩

/-- A symbol spelled with an escape and behind its position; and a field that no file has. -/
theorem files_read_as_told_of_escape :
    ConfigFile.load (.ok
        "\x7b\"probes\":[ \x7b\"sk_buff\":-1,\"symbol\":\"\\u0066\"\x7d]\x7d".toUTF8.data.toList) =
      .ok ⟨false, [.generic "f" (-1)]⟩ ∧
    ∃ reason, ConfigFile.load (.ok "\x7b\"probe\":[]\x7d".toUTF8.data.toList) =
      .error (.rejected reason) := by
  have hnone : Blank [] := fun _ hc => nomatch hc
  have hspace : Blank [' '] := by simp [Blank]
  constructor
  · have hposition : (Numeral.ofInt (-1)).Written ['-', '1'] := Numeral.written_ofInt (-1)
    have hunit : codeUnit? '0' '0' '6' '6' = some 'f'.toNat := rfl
    have hsymbol : Quoted ['\\', 'u', '0', '0', '6', '6'] ['f'] :=
      .unit (codeUnit?_eq_some_iff.mp hunit) .nil
    have hprobe : (Spec.generic "f" (-1)).IsToldBy (.object
        [ ("sk_buff".toList, .number (.ofInt (-1))),
          ("symbol".toList, .text ['\\', 'u', '0', '0', '6', '6']) ]) :=
      ⟨_, rfl, [_, _], [_, _, _], .swap .., by simp [Spec.generic],
        .cons ⟨quoted_escape "sk_buff".toList, rfl⟩
          (.cons ⟨quoted_escape "symbol".toList, _, rfl, hsymbol⟩ .nil)⟩
    have hfile : ConfigFile.IsToldBy ⟨false, [.generic "f" (-1)]⟩ (.object
        [("probes".toList, .array [_])]) :=
      ⟨_, rfl, [_], [_], .swap .., by simp,
        .cons ⟨quoted_escape "probes".toList, _, rfl, .cons hprobe .nil⟩ .nil⟩
    have hread := files_read_as_told.1 _ _ _ hfile <|
      .cons [] ['\x7b'] hnone (.mark (by decide)) <|
      .cons [] "\"probes\"".toList hnone (.text (quoted_escape "probes".toList).between) <|
      .cons [] [':'] hnone (.mark (by decide)) <|
      .cons [] ['['] hnone (.mark (by decide)) <|
      .cons [' '] ['\x7b'] hspace (.mark (by decide)) <|
      .cons [] "\"sk_buff\"".toList hnone (.text (quoted_escape "sk_buff".toList).between) <|
      .cons [] [':'] hnone (.mark (by decide)) <|
      .cons [] ['-', '1'] hnone (.number hposition) <|
      .cons [] [','] hnone (.mark (by decide)) <|
      .cons [] "\"symbol\"".toList hnone (.text (quoted_escape "symbol".toList).between) <|
      .cons [] [':'] hnone (.mark (by decide)) <|
      .cons [] "\"\\u0066\"".toList hnone (.text hsymbol.between) <|
      .cons [] ['\x7d'] hnone (.mark (by decide)) <|
      .cons [] [']'] hnone (.mark (by decide)) <|
      .cons [] ['\x7d'] hnone (.mark (by decide)) (.nil hnone)
    exact hread
  · have hfaulty : ConfigFile.IsFaulty [("probe".toList, .array [])] := by
      refine .inl (.inl ⟨_, List.mem_cons_self, fun name hname hquoted => ?_⟩)
      have hprobe := (quoted_escape "probe".toList).unescape?_eq
      obtain rfl : name = "probe" :=
        String.toList_injective (Option.some.inj (hquoted.unescape?_eq.symm.trans hprobe))
      exact absurd hname (by decide +kernel)
    have hread := files_read_as_told.2 _ _ hfaulty <|
      .cons [] ['\x7b'] hnone (.mark (by decide)) <|
      .cons [] "\"probe\"".toList hnone (.text (quoted_escape "probe".toList).between) <|
      .cons [] [':'] hnone (.mark (by decide)) <|
      .cons [] ['['] hnone (.mark (by decide)) <|
      .cons [] [']'] hnone (.mark (by decide)) <|
      .cons [] ['\x7d'] hnone (.mark (by decide)) (.nil hnone)
    exact hread

end Lifeline.Probe
