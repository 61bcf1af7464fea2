import Lifeline.Proofs.Json.Reading

/-! Records in texts that others write.

Members tell a record if each field is said once, in any order, or is left unsaid where that is as
good as saying it (`Tells`). Fields do not meddle with each other, and so such members are read as
if all was said in the order of the fields (`Shape.readNamed_of_tells`). A strict record takes no
others: if members are read, then each is of a field, no two are of one, and each has a value that
its field takes (`Shape.readNamed_eq_ok_iff`). -/
namespace Lifeline.Json

theorem Tree.outlineItems_eq_map (items : List Tree) :
    outlineItems items = items.map outline := by
  induction items with
  | nil => rfl
  | cons item rest ih => rw [outlineItems, ih, List.map_cons]

theorem Quoted.readText_eq {raw : List Char} {name : String} (h : Quoted raw name.toList) :
    Key.readText ⟨raw, true⟩ = .ok name :=
  h.readRaw_eq

theorem Quoted.eq_of_readText {raw text : List Char} {name : String} (h : Quoted raw text)
    (hread : Key.readText ⟨raw, true⟩ = .ok name) : text = name.toList := by
  have htext : Key.readText ⟨raw, true⟩ = .ok (String.ofList text) := by
    refine Quoted.readText_eq ?_
    rwa [String.toList_ofList]
  have hname := Except.ok.inj (htext.symm.trans hread)
  rw [← hname, String.toList_ofList]

theorem quoted_of_readText {raw : List Char} {name : String} (hraw : Between raw)
    (h : Key.readText ⟨raw, true⟩ = .ok name) : Quoted raw name.toList := by
  change readRaw raw = .ok name at h
  unfold readRaw at h
  split at h
  · rename_i text htext
    have hname := Except.ok.inj h
    rw [← hname, String.toList_ofList]
    exact hraw.quoted htext
  · cases h

/-! ### Telling -/

/-- What members may say of a field. -/
structure Told where
  name : String
  /-- The values that say it. -/
  means : Tree → Prop
  /-- It may be left unsaid. -/
  canLack : Prop

/-- Members say all this and nothing else, in any order: each thing once or, if it can lack, not at
all. -/
def Tells (told : List Told) (members : List (List Char × Tree)) : Prop :=
  ∃ said unsaid, (said ++ unsaid).Perm told ∧ (∀ f ∈ unsaid, f.canLack) ∧
    List.Forall₂ (fun f m => Quoted m.1 f.name.toList ∧ f.means m.2) said members

namespace Shape

variable {δ α : Type} {shape : Shape δ α}

/-- What is said is put into the draft one after the other. -/
theorem exists_given_of_said {put : String → δ → δ} {said : List Told}
    {members : List (List Char × Tree)}
    (h : List.Forall₂ (fun f m => Quoted m.1 f.name.toList ∧ f.means m.2) said members)
    (hfields : ∀ f ∈ said, ∃ field ∈ shape.fields, field.name = f.name ∧
      ∀ t d, f.means t → field.read t.outline d = .ok (put f.name d)) :
    ∃ given : List (Field δ × Key × Outline), given.map (·.2) = Tree.outlineMembers members ∧
      given.map (·.1.name) = said.map (·.name) ∧
      (∀ g ∈ given, g.1 ∈ shape.fields ∧ g.2.1.readText = .ok g.1.name) ∧
      ∀ d, given.foldlM (fun d g => g.1.read g.2.2 d) d =
        .ok (said.foldl (fun d f => put f.name d) d) := by
  induction h with
  | nil => exact ⟨[], rfl, rfl, fun _ hg => absurd hg List.not_mem_nil, fun _ => rfl⟩
  | @cons f m said members hm _ ih =>
    obtain ⟨⟨field, hfield, hname, hread⟩, hrest⟩ := List.forall_mem_cons.mp hfields
    obtain ⟨given, hmembers, hnames, hgiven, hfold⟩ := ih hrest
    refine ⟨(field, ⟨m.1, true⟩, m.2.outline) :: given, ?_, ?_, ?_, fun d => ?_⟩
    · rw [List.map_cons, hmembers]
      rfl
    · rw [List.map_cons, hnames, List.map_cons, hname]
    · refine List.forall_mem_cons.mpr ⟨⟨hfield, ?_⟩, hgiven⟩
      rw [hname]
      exact hm.1.readText_eq
    · rw [List.foldlM_cons, hread m.2 d hm.2, List.foldl_cons]
      exact hfold (put f.name d)

/-- Members that tell a record are read as if they said everything in order. -/
theorem readNamed_of_tells (shape : Shape δ α) {put : String → δ → δ} {told : List Told}
    {members : List (List Char × Tree)} (hnames : (shape.fields.map (·.name)).Nodup)
    (honce : (told.map (·.name)).Nodup)
    (hfields : ∀ f ∈ told, ∃ field ∈ shape.fields, field.name = f.name ∧
      ∀ t d, f.means t → field.read t.outline d = .ok (put f.name d))
    (hcomm : ∀ f ∈ told, ∀ g ∈ told, ∀ d,
      put g.name (put f.name d) = put f.name (put g.name d))
    (hlack : ∀ f ∈ told, f.canLack → put f.name shape.blank = shape.blank)
    (h : Tells told members) :
    shape.readNamed [] shape.blank (Tree.outlineMembers members) =
      .ok (told.foldl (fun d f => put f.name d) shape.blank) := by
  obtain ⟨said, unsaid, hperm, hunsaid, hsaid⟩ := h
  have hmem {f : Told} (hf : f ∈ said ++ unsaid) : f ∈ told := hperm.mem_iff.mp hf
  obtain ⟨given, hmembers, hnames', hgiven, hfold⟩ := exists_given_of_said hsaid fun f hf =>
    hfields f (hmem (List.mem_append_left _ hf))
  have hblank : unsaid.foldl (fun d f => put f.name d) shape.blank = shape.blank :=
    foldl_of_fixed fun f hf => hlack f (hmem (List.mem_append_right _ hf)) (hunsaid f hf)
  have honce' : (given.map (·.1.name)).Nodup := by
    have hall : ((said ++ unsaid).map (·.name)).Nodup := (hperm.map _).nodup_iff.mpr honce
    rw [List.map_append] at hall
    exact hnames' ▸ (List.nodup_append.mp hall).1
  rw [← hmembers, readNamed_eq hnames hgiven honce' (fun _ _ => List.not_mem_nil), hfold]
  have hall := (List.perm_append_comm.trans hperm).foldl_eq' (f := fun d f => put f.name d)
    (fun f hf g hg d => hcomm f (hmem (List.perm_append_comm.mem_iff.mp hf)) g
      (hmem (List.perm_append_comm.mem_iff.mp hg)) d) shape.blank
  rw [← hall, List.foldl_append, hblank]

/-! ### Strict records -/

/-- Members that are read are fields, each once, and each has a value that its field takes. -/
theorem exists_given_of_readNamed (hstrict : shape.isStrict = true) {seen : List String}
    {draft d : δ} {members : List (List Char × Tree)}
    (h : shape.readNamed seen draft (Tree.outlineMembers members) = .ok d) :
    ∃ given : List (Field δ × List Char × Tree), given.map (·.2) = members ∧
      (∀ g ∈ given, g.1 ∈ shape.fields ∧ Key.readText ⟨g.2.1, true⟩ = .ok g.1.name) ∧
      (given.map (·.1.name)).Nodup ∧ (∀ g ∈ given, g.1.name ∉ seen) ∧
      given.foldlM (fun d g => g.1.read g.2.2.outline d) draft = .ok d := by
  induction members generalizing seen draft with
  | nil => exact ⟨[], rfl, by simp, List.nodup_nil, by simp, h⟩
  | cons member rest ih =>
    obtain ⟨raw, value⟩ := member
    rw [Tree.outlineMembers, readNamed] at h
    obtain ⟨name, hkey, h⟩ := bind_eq_ok.mp h
    split at h
    · rw [if_pos hstrict] at h
      cases h
    · rename_i field hfind
      have hfound := List.find?_some hfind
      have hname : field.name = name := beq_iff_eq.mp hfound
      split at h
      · cases h
      · rename_i hunseen
        obtain ⟨draft', hread, hrest⟩ := bind_eq_ok.mp h
        obtain ⟨given, hmembers, hgiven, honce, hnew, hfold⟩ := ih hrest
        have hfirst : name ∉ given.map (·.1.name) := by
          intro hmem
          obtain ⟨g, hg, heq⟩ := List.mem_map.mp hmem
          exact hnew g hg (heq ▸ List.mem_cons_self)
        refine ⟨(field, raw, value) :: given, by rw [List.map_cons, hmembers],
          List.forall_mem_cons.mpr ⟨⟨List.mem_of_find?_eq_some hfind, hname ▸ hkey⟩, hgiven⟩,
          List.nodup_cons.mpr ⟨fun hmem => hfirst (hname ▸ hmem), honce⟩,
          List.forall_mem_cons.mpr ⟨hname ▸ hunseen, fun g hg hmem =>
            hnew g hg (List.mem_cons_of_mem _ hmem)⟩, ?_⟩
        rw [List.foldlM_cons, hread]
        exact hfold

end Shape

/-- Members that name something else than these fields, or name something twice. -/
def Misnamed (fields : List String) (members : List (List Char × Tree)) : Prop :=
  (∃ m ∈ members, ∀ name ∈ fields, ¬Quoted m.1 name.toList) ∨
    ∃ a b text, [a, b].Sublist members ∧ Quoted a.1 text ∧ Quoted b.1 text

namespace Shape

variable {δ α : Type} {shape : Shape δ α} {members : List (List Char × Tree)} {draft d : δ}

/-- A strict record is not read from members that are misnamed. -/
theorem not_misnamed_of_readNamed (hstrict : shape.isStrict = true)
    (hraw : ∀ m ∈ members, Between m.1)
    (h : shape.readNamed [] draft (Tree.outlineMembers members) = .ok d) :
    ¬Misnamed (shape.fields.map (·.name)) members := by
  obtain ⟨given, rfl, hgiven, honce, -, -⟩ := exists_given_of_readNamed hstrict h
  rintro (⟨m, hm, hother⟩ | ⟨a, b, text, htwice, ha, hb⟩)
  · obtain ⟨g, hg, rfl⟩ := List.mem_map.mp hm
    obtain ⟨hfield, hkey⟩ := hgiven g hg
    exact hother g.1.name (List.mem_map_of_mem hfield) (quoted_of_readText (hraw _ hm) hkey)
  · obtain ⟨pair, hpair, hmap⟩ := List.sublist_map_iff.mp htwice
    obtain ⟨first, second, rfl, rfl, rfl⟩ : ∃ first second, pair = [first, second] ∧
        first.2 = a ∧ second.2 = b := by
      match pair, hmap with
      | [first, second], hmap =>
        obtain ⟨hfirst, hsecond⟩ := List.cons.inj hmap
        exact ⟨first, second, rfl, hfirst.symm, (List.cons.inj hsecond).1.symm⟩
    have hfirst := ha.eq_of_readText (hgiven first (hpair.subset List.mem_cons_self)).2
    have hsecond := hb.eq_of_readText
      (hgiven second (hpair.subset (List.mem_cons_of_mem _ List.mem_cons_self))).2
    have hdistinct := (hpair.map (·.1.name)).nodup honce
    have hsame : first.1.name = second.1.name :=
      String.toList_injective (hfirst.symm.trans hsecond)
    simp [hsame] at hdistinct

/-- The member of a field has a value that the field takes. -/
theorem read_of_readNamed (shape : Shape δ α) (hnames : (shape.fields.map (·.name)).Nodup)
    (hstrict : shape.isStrict = true)
    (h : shape.readNamed [] draft (Tree.outlineMembers members) = .ok d)
    {m : List Char × Tree} (hm : m ∈ members) {field : Field δ} (hfield : field ∈ shape.fields)
    (hname : Quoted m.1 field.name.toList) :
    ∃ before after, field.read m.2.outline before = .ok after := by
  obtain ⟨given, rfl, hgiven, -, -, hfold⟩ := exists_given_of_readNamed hstrict h
  obtain ⟨g, hg, rfl⟩ := List.mem_map.mp hm
  obtain ⟨hmem, hkey⟩ := hgiven g hg
  have hsame : g.1.name = field.name :=
    (String.toList_injective (hname.eq_of_readText hkey)).symm
  obtain rfl : g.1 = field := List.inj_on_of_nodup_map hnames hmem hfield hsame
  exact exists_of_foldlM_eq_ok hfold hg

/-- What reading the fields that are named keeps, reading the record keeps. -/
theorem keeps_of_readNamed {P : δ → Prop} (hstrict : shape.isStrict = true)
    (hraw : ∀ m ∈ members, Between m.1)
    (h : shape.readNamed [] draft (Tree.outlineMembers members) = .ok d)
    (hkeep : ∀ field ∈ shape.fields, (∃ m ∈ members, Quoted m.1 field.name.toList) →
      ∀ o before after, field.read o before = .ok after → P before → P after)
    (hdraft : P draft) : P d := by
  obtain ⟨given, rfl, hgiven, -, -, hfold⟩ := exists_given_of_readNamed hstrict h
  refine foldlM_keeps (fun g hg before after => ?_) hfold hdraft
  obtain ⟨hfield, hkey⟩ := hgiven g hg
  have hm := List.mem_map_of_mem (f := (·.2)) hg
  exact hkeep g.1 hfield ⟨g.2, hm, quoted_of_readText (hraw _ hm) hkey⟩ _ before after

end Shape

end Lifeline.Json
