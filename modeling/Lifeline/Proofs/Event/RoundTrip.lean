import Lifeline.Proofs.Event.Grammar

/-! Decoding gives back what was written.

Sections are appended to a raw event as long as they fit, and those that do not are left out
(`RawEvent.appendAll`). The used bytes of the event are then the accepted sections back to
back, whatever the buffer held before (`sections_appendAll`), so decoding cuts out exactly
those (`decode_of_sections`). The three sections of a full event tell what they were written
for (`Event.told?_written`).

`decode_appendAll` says what is decoded of an event that any sections were appended to. -/
namespace Lifeline

/-- A section as it lies in an event. -/
def Section.bytes (s : Section) : List UInt8 :=
  RawEvent.sectionBytes s.owner s.dataType s.payload

/-- A payload size that a header can hold. -/
def Section.Short (s : Section) : Prop :=
  s.payload.length < LittleEndian.limit 2

/-- Sections that lie back to back. -/
theorem sections_flatMap_bytes {sections : List Section} (h : ∀ s ∈ sections, s.Short) :
    Sections (sections.flatMap Section.bytes) sections := by
  induction sections with
  | nil => exact .nil
  | cons s rest ih =>
    have hsize : s.payload.length = LittleEndian.decode (LittleEndian.encode 2 s.payload.length) :=
      (LittleEndian.decode_encode (h s (List.mem_cons_self ..))).symm
    have hlater := ih fun s' hs' => h s' (List.mem_cons_of_mem s hs')
    rw [List.flatMap_cons]
    show Sections (s.owner :: s.dataType :: _ :: _ :: (s.payload ++ _)) _
    exact .cons s.owner s.dataType _ _ hsize hlater

namespace RawEvent

/-- The used size lies within the buffer. -/
def InBounds (e : RawEvent) : Prop :=
  e.size.toNat ≤ room

theorem inBounds_reset (e : RawEvent) : e.reset.InBounds :=
  Nat.zero_le room

theorem Fits.inBounds {e : RawEvent} {length : Nat} (h : e.Fits length) : e.InBounds := by
  unfold Fits at h
  unfold InBounds
  omega

theorem inBounds_write (e : RawEvent) (owner dataType : UInt8) (payload : List UInt8)
    (h : e.Fits payload.length) : (e.write owner dataType payload h).InBounds := by
  rw [InBounds, toNat_size_write]
  exact h

theorem sections_of_inBounds {e : RawEvent} (h : e.InBounds) :
    e.sections = e.data.take e.size.toNat := by
  rw [sections, Nat.min_eq_left h]

theorem sections_reset (e : RawEvent) : e.reset.sections = [] := by
  simp [sections, reset]

/-- A section that fits comes behind those that are there. -/
theorem sections_write (e : RawEvent) (owner dataType : UInt8) (payload : List UInt8)
    (h : e.Fits payload.length) :
    (e.write owner dataType payload h).sections =
      e.sections ++ sectionBytes owner dataType payload := by
  have hlength : (e.data.take e.size.toNat ++ sectionBytes owner dataType payload).length =
      (e.write owner dataType payload h).size.toNat := by
    have hdata := e.length_data
    have hin := h.inBounds
    unfold InBounds at hin
    rw [toNat_size_write]
    simp only [sectionBytes, List.length_append, List.length_take, List.length_cons,
      LittleEndian.length_encode, headerSize]
    omega
  rw [sections_of_inBounds (e.inBounds_write owner dataType payload h),
    sections_of_inBounds h.inBounds]
  exact List.take_left' hlength

/-- What is decoded of an event whose sections lie back to back. -/
theorem decode_of_sections {e : RawEvent} (h : e.InBounds) {sections : List Section}
    (hsections : e.sections = sections.flatMap Section.bytes) (hshort : ∀ s ∈ sections, s.Short) :
    Event.decode e.bytes = Draft.blank.gather none sections := by
  apply decode_of_framed
  have hused : e.size.toNat < LittleEndian.limit 2 := Nat.lt_of_le_of_lt h (by decide)
  have hlength : e.sections.length = e.size.toNat := by
    rw [sections_of_inBounds h, List.length_take_of_le (by rw [e.length_data]; exact h)]
  have hbody := sections_flatMap_bytes hshort
  rw [← hsections] at hbody
  have hsize : e.sections.length =
      LittleEndian.decode (LittleEndian.encode 2 e.size.toNat) := by
    rw [LittleEndian.decode_encode hused, hlength]
  have hframed := Framed.intro _ _ (e.data.drop e.size.toNat) hsize (by rw [hlength]; exact h) hbody
  rw [sections_of_inBounds h, List.take_append_drop] at hframed
  exact hframed

/-! ### One section after another -/

/-- Appends sections one after another: those that were accepted, and the event in the
end. -/
def appendAll (e : RawEvent) : List Section → List Section × RawEvent
  | [] => ([], e)
  | s :: rest =>
    match e.append? s.owner s.dataType s.payload with
    | some e' => (s :: (e'.appendAll rest).1, (e'.appendAll rest).2)
    | none => e.appendAll rest

theorem append?_eq_some {e e' : RawEvent} {s : Section}
    (h : e.append? s.owner s.dataType s.payload = some e') :
    e'.InBounds ∧ s.Short ∧ e'.sections = e.sections ++ s.bytes := by
  unfold append? at h
  split at h
  · rename_i hfits
    cases h
    refine ⟨e.inBounds_write s.owner s.dataType s.payload hfits, ?_,
      e.sections_write s.owner s.dataType s.payload hfits⟩
    unfold Fits at hfits
    have hroom : room < LittleEndian.limit 2 := by decide
    unfold Section.Short
    omega
  · exact absurd h (by simp)

/-- The used bytes are those from before, and the accepted sections back to back. -/
theorem sections_appendAll {e : RawEvent} (h : e.InBounds) (sections : List Section) :
    (e.appendAll sections).2.InBounds ∧ (∀ s ∈ (e.appendAll sections).1, s.Short) ∧
      (e.appendAll sections).2.sections =
        e.sections ++ (e.appendAll sections).1.flatMap Section.bytes := by
  induction sections generalizing e with
  | nil => exact ⟨h, by simp [appendAll], by simp [appendAll]⟩
  | cons s rest ih =>
    rw [appendAll]
    cases hnow : e.append? s.owner s.dataType s.payload with
    | none => exact ih h
    | some e' =>
      obtain ⟨hin, hshort, hused⟩ := append?_eq_some hnow
      obtain ⟨hin', hshort', hused'⟩ := ih hin
      refine ⟨hin', List.forall_mem_cons.mpr ⟨hshort, hshort'⟩, ?_⟩
      rw [hused', hused, List.flatMap_cons, List.append_assoc]

theorem decode_appended (slot : RawEvent) (sections : List Section) :
    Event.decode (slot.reset.appendAll sections).2.bytes =
      Draft.blank.gather none (slot.reset.appendAll sections).1 := by
  obtain ⟨hin, hshort, hused⟩ := sections_appendAll slot.inBounds_reset sections
  rw [sections_reset, List.nil_append] at hused
  exact decode_of_sections hin hused hshort

end RawEvent

/-! ### A full event -/

namespace Event

theorem readWord_encode (w : UInt64) : readWord (LittleEndian.encode 8 w.toNat) = w := by
  rw [readWord, LittleEndian.decode_encode w.toNat_lt, UInt64.ofNat_toNat]

/-- Three words and what follows them, each cut out at its place. -/
theorem cut_words {a b c : List UInt8} (rest : List UInt8) (ha : a.length = 8)
    (hb : b.length = 8) (hc : c.length = 8) :
    (a ++ b ++ c ++ rest).take 8 = a ∧ ((a ++ b ++ c ++ rest).drop 8).take 8 = b ∧
      ((a ++ b ++ c ++ rest).drop 16).take 8 = c ∧ (a ++ b ++ c ++ rest).drop 24 = rest := by
  have hab : (a ++ b).length = 16 := by rw [List.length_append, ha, hb]
  have habc : (a ++ b ++ c).length = 24 := by rw [List.length_append, hab, hc]
  refine ⟨?_, ?_, ?_, List.drop_left' habc⟩
  · rw [List.append_assoc, List.append_assoc, List.take_left' ha]
  · rw [List.append_assoc, List.append_assoc, List.drop_left' ha, List.take_left' hb]
  · rw [List.append_assoc (a ++ b), List.drop_left' hab, List.take_left' hc]

theorem readSighting_trackingPayload (s : Sighting) :
    readSighting (RawEvent.trackingPayload s) = s := by
  have hreason : LittleEndian.decode (LittleEndian.encode 4 s.dropReason.toNat) =
      s.dropReason.toNat := LittleEndian.decode_encode s.dropReason.toNat_lt
  have hlength (w : UInt64) : (LittleEndian.encode 8 w.toNat).length = 8 :=
    LittleEndian.length_encode 8 w.toNat
  obtain ⟨hhead, htime, hskb, hrest⟩ := cut_words (LittleEndian.encode 4 s.dropReason.toNat)
    (hlength s.identity.origHead) (hlength s.identity.timestamp) (hlength s.skb)
  rw [readSighting, RawEvent.trackingPayload, hhead, htime, hskb, hrest, hreason,
    readWord_encode, readWord_encode, readWord_encode, UInt32.ofNat_toNat]

/-- The sections that an event is written as. -/
def written (timestamp : Nanos) (function : Address) (s : Sighting) : List Section :=
  [⟨Owner.common.code, RawEvent.defaultType, RawEvent.commonPayload timestamp⟩,
   ⟨Owner.kernel.code, RawEvent.defaultType, RawEvent.kernelPayload function⟩,
   ⟨Owner.tracking.code, RawEvent.defaultType, RawEvent.trackingPayload s⟩]

variable (timestamp : Nanos) (function : Address) (s : Sighting)

theorem sized_of_mem_written {sec : Section} (h : sec ∈ written timestamp function s) :
    ∃ o : Owner, sec.owner = o.code ∧ sec.payload.length = o.payloadSize := by
  simp only [written, List.mem_cons, List.not_mem_nil, or_false] at h
  rcases h with rfl | rfl | rfl
  · exact ⟨.common, rfl, RawEvent.length_commonPayload timestamp⟩
  · exact ⟨.kernel, rfl, RawEvent.length_kernelPayload function⟩
  · exact ⟨.tracking, rfl, RawEvent.length_trackingPayload s⟩

theorem sized_written : Sized (written timestamp function s) := by
  intro sec hsec o howner
  obtain ⟨o', howner', hsize⟩ := sized_of_mem_written timestamp function s hsec
  rwa [Owner.code_injective (howner.symm.trans howner')]

theorem short_of_mem_written {sec : Section} (h : sec ∈ written timestamp function s) :
    sec.Short := by
  obtain ⟨o, -, hsize⟩ := sized_of_mem_written timestamp function s h
  rw [Section.Short, hsize]
  cases o <;> decide

theorem told?_written :
    told? (written timestamp function s) = some ⟨timestamp, some function, some s⟩ := by
  rw [← Draft.finish_readAll_blank (sized_written timestamp function s)]
  show Except.ok (Event.mk (readWord (RawEvent.commonPayload timestamp))
    (some (readWord (RawEvent.kernelPayload function)))
    (some (readSighting (RawEvent.trackingPayload s)))) = _
  rw [readSighting_trackingPayload, RawEvent.commonPayload, RawEvent.kernelPayload,
    readWord_encode, readWord_encode]

end Event

/-! ### What decoding depends on -/

/-- The owner of a section is known. -/
def Section.isKnown (s : Section) : Bool :=
  (Owner.ofCode? s.owner).isSome

/-- Sections of other owners make no difference to the event or the fault. -/
theorem Draft.gather_known (ending : Option DecodeError) (d : Draft) (sections : List Section) :
    (d.gather ending (sections.filter Section.isKnown)).result =
      (d.gather ending sections).result := by
  induction sections generalizing d with
  | nil => rfl
  | cons s rest ih =>
    cases howner : Owner.ofCode? s.owner with
    | none =>
      rw [List.filter_cons_of_neg (by simp [Section.isKnown, howner]), ih, gather, howner]
    | some o =>
      rw [List.filter_cons_of_pos (by simp [Section.isKnown, howner]), gather, gather, howner]
      simp only
      split
      · exact ih (d.read o s.payload)
      · rfl

/-- **An event is decoded from its accepted sections**: it is well-formed exactly if those of
known owners have their sizes and one of them is a common one, and then the last one of each
known owner counts. The fault, if there is one, depends on those sections as well, and on
nothing else: not on the buffer, on sections that did not fit, or on those of other owners. -/
theorem decode_appendAll (slot : RawEvent) (sections : List Section) :
    let written := slot.reset.appendAll sections
    (∀ e, (Event.decode written.2.bytes).result = .ok e ↔
      Sized written.1 ∧ told? written.1 = some e) ∧
    ((∃ e, (Event.decode written.2.bytes).result = .ok e) ↔
      Sized written.1 ∧ ∃ s ∈ written.1, s.owner = Owner.common.code) ∧
    ∀ slot' sections', let written' := RawEvent.appendAll (RawEvent.reset slot') sections'
      written'.1.filter Section.isKnown = written.1.filter Section.isKnown →
      (Event.decode written'.2.bytes).result = (Event.decode written.2.bytes).result := by
  intro written
  have hok (e : Event) : (Event.decode written.2.bytes).result = .ok e ↔
      Sized written.1 ∧ told? written.1 = some e := by
    rw [RawEvent.decode_appended, Draft.gather_eq_ok_iff]
    exact and_iff_right rfl
  refine ⟨hok, ?_, ?_⟩
  · simp only [hok, exists_and_left, told?_isSome_iff]
  · intro slot' sections' written' hknown
    rw [RawEvent.decode_appended, RawEvent.decode_appended, ← Draft.gather_known, hknown,
      Draft.gather_known]

/-- A time, a function that takes more room than there is left, and another time. -/
def crowded : List Section :=
  [⟨1, 1, [5, 0, 0, 0, 0, 0, 0, 0]⟩, ⟨2, 1, List.replicate 1007 7⟩,
    ⟨1, 1, [6, 0, 0, 0, 0, 0, 0, 0]⟩]

/-- The times, and a section of an owner that is not known. -/
def annotated : List Section :=
  [⟨1, 1, [5, 0, 0, 0, 0, 0, 0, 0]⟩, ⟨9, 7, [1]⟩, ⟨1, 1, [6, 0, 0, 0, 0, 0, 0, 0]⟩]

/-- The later time counts, without the function that did not fit, and just as it does beside
the section that is skipped. -/
theorem crowded_decoded :
    (Event.decode (RawEvent.blank.reset.appendAll crowded).2.bytes).result =
        .ok ⟨6, none, none⟩ ∧
      (RawEvent.blank.reset.appendAll annotated).1.filter Section.isKnown =
        (RawEvent.blank.reset.appendAll crowded).1.filter Section.isKnown ∧
      (Event.decode (RawEvent.blank.reset.appendAll annotated).2.bytes).result =
        (Event.decode (RawEvent.blank.reset.appendAll crowded).2.bytes).result := by
  have hall := decode_appendAll RawEvent.blank crowded
  have hcrowded : (RawEvent.blank.reset.appendAll crowded).1 =
      [⟨1, 1, [5, 0, 0, 0, 0, 0, 0, 0]⟩, ⟨1, 1, [6, 0, 0, 0, 0, 0, 0, 0]⟩] := by
    decide +kernel
  have hsame : (RawEvent.blank.reset.appendAll annotated).1.filter Section.isKnown =
      (RawEvent.blank.reset.appendAll crowded).1.filter Section.isKnown := by
    decide +kernel
  refine ⟨(hall.1 _).mpr ?_, hsame, hall.2.2 RawEvent.blank annotated hsame⟩
  rw [hcrowded]
  decide

end Lifeline
