import Lifeline.Proofs.Event.RoundTrip

/-! What is written to a raw event, and where.

An event may have sections appended to it, may be reset, and may have its size field set to
anything (`RawEvent.Edit`). Whatever came before, a section is written behind the used bytes, with
nothing else touched (`RawEvent.Extends`), or not at all. As long as only appends and resets follow
a reset, the used bytes are the sections accepted since (`RawEvent.Tidy`).

`appends_whole_or_not` says both of every sequence of edits, and how many sections of one size an
event takes. -/
namespace Lifeline

namespace RawEvent

/-! ### One section -/

/-- Bytes were added behind the used ones, and all others are as they were. -/
structure Extends (e e' : RawEvent) (added : List UInt8) : Prop where
  size : e'.size.toNat = e.size.toNat + added.length
  before : e'.data.take e.size.toNat = e.data.take e.size.toNat
  between : (e'.data.drop e.size.toNat).take added.length = added
  behind : e'.data.drop (e.size.toNat + added.length) = e.data.drop (e.size.toNat + added.length)

theorem length_sectionBytes (owner dataType : UInt8) (payload : List UInt8) :
    (sectionBytes owner dataType payload).length = headerSize + payload.length := by
  simp only [sectionBytes, List.length_append, List.length_cons, LittleEndian.length_encode,
    headerSize]

variable {e : RawEvent}

theorem extends_write (owner dataType : UInt8) (payload : List UInt8)
    (h : e.Fits payload.length) :
    e.Extends (e.write owner dataType payload h) (sectionBytes owner dataType payload) := by
  have hlength := length_sectionBytes owner dataType payload
  have hused : (e.data.take e.size.toNat).length = e.size.toNat := by
    rw [List.length_take, e.length_data, Nat.min_eq_left h.inBounds]
  have hwritten : (e.data.take e.size.toNat ++ sectionBytes owner dataType payload).length =
      e.size.toNat + (sectionBytes owner dataType payload).length := by
    rw [List.length_append, hused]
  have hdata : (e.write owner dataType payload h).data =
      e.data.take e.size.toNat ++ sectionBytes owner dataType payload ++
        e.data.drop (e.size.toNat + headerSize + payload.length) := rfl
  refine ⟨?_, ?_, ?_, ?_⟩
  · rw [toNat_size_write, hlength, Nat.add_assoc]
  · rw [hdata, List.append_assoc, List.take_left' hused]
  · rw [hdata, List.append_assoc, List.drop_left' hused, List.take_left]
  · rw [hdata, List.drop_left' hwritten, hlength, Nat.add_assoc]

/-! ### Edits -/

/-- What may be done to a raw event. -/
inductive Edit where
  | append (s : Section)
  | reset
  /-- The size field is set, to whatever it may be. -/
  | resize (size : UInt16)

/-- The answer to an append, and the event afterwards. -/
def edit (e : RawEvent) : Edit → Option Bool × RawEvent
  | .append s =>
    match e.append? s.owner s.dataType s.payload with
    | some e' => (some true, e')
    | none => (some false, e)
  | .reset => (none, e.reset)
  | .resize size => (none, { e with size := size })

/-- Edits one after another: the answers, and the event in the end. -/
def editAll (e : RawEvent) : List Edit → List (Option Bool) × RawEvent
  | [] => ([], e)
  | change :: rest =>
    ((e.edit change).1 :: ((e.edit change).2.editAll rest).1, ((e.edit change).2.editAll rest).2)

theorem editAll_append (e : RawEvent) (edits later : List Edit) :
    e.editAll (edits ++ later) =
      ((e.editAll edits).1 ++ ((e.editAll edits).2.editAll later).1,
        ((e.editAll edits).2.editAll later).2) := by
  induction edits generalizing e with
  | nil => rfl
  | cons change rest ih =>
    rw [List.cons_append, editAll, ih]
    rfl

theorem edit_of_fits {s : Section} (h : e.Fits s.payload.length) :
    e.edit (.append s) = (some true, e.write s.owner s.dataType s.payload h) := by
  rw [edit, append?, dif_pos h]

theorem edit_of_not_fits {s : Section} (h : ¬e.Fits s.payload.length) :
    e.edit (.append s) = (some false, e) := by
  rw [edit, append?, dif_neg h]

theorem edit_append_fst (e : RawEvent) (s : Section) :
    (e.edit (.append s)).1 = some (decide (e.Fits s.payload.length)) := by
  by_cases h : e.Fits s.payload.length
  · rw [edit_of_fits h, decide_eq_true h]
  · rw [edit_of_not_fits h, decide_eq_false h]

/-- The two bytes of a header hold the payload size of every section that fits. -/
theorem exists_size_bytes {s : Section} (h : e.Fits s.payload.length) :
    ∃ low high : UInt8, low.toNat + 256 * high.toNat = s.payload.length ∧
      e.Extends (e.edit (.append s)).2 ([s.owner, s.dataType, low, high] ++ s.payload) := by
  have hshort : s.payload.length < LittleEndian.limit 2 := by
    have hroom : room < LittleEndian.limit 2 := by decide
    unfold Fits at h
    omega
  have hread := LittleEndian.decode_encode hshort
  refine ⟨_, _, hread, ?_⟩
  rw [edit_of_fits h]
  exact extends_write s.owner s.dataType s.payload h

/-! ### Appends and resets -/

/-- The size field is set by hand. -/
def Edit.Assigns : Edit → Prop
  | .resize _ => True
  | _ => False

/-- The sections that an event holds after an edit that was answered like this. -/
def keep (kept : List Section) : Edit × Option Bool → List Section
  | (.append s, some true) => kept ++ [s]
  | (.reset, _) => []
  | _ => kept

/-- The sections that were accepted since the last reset, told by the answers. -/
def accepted (edits : List Edit) (answers : List (Option Bool)) : List Section :=
  (edits.zip answers).foldl keep []

/-- The used bytes are these sections, one after another. -/
structure Tidy (e : RawEvent) (kept : List Section) : Prop where
  in_bounds : e.InBounds
  used : e.sections = kept.flatMap Section.bytes

variable {kept : List Section}

theorem tidy_reset (e : RawEvent) : e.reset.Tidy [] :=
  ⟨e.inBounds_reset, e.sections_reset⟩

theorem Tidy.edit (h : e.Tidy kept) {change : Edit} (hfree : ¬change.Assigns) :
    (e.edit change).2.Tidy (keep kept (change, (e.edit change).1)) := by
  cases change with
  | append s =>
    by_cases hfits : e.Fits s.payload.length
    · rw [edit_of_fits hfits]
      refine ⟨e.inBounds_write s.owner s.dataType s.payload hfits, ?_⟩
      rw [sections_write, h.used, keep, List.flatMap_append, List.flatMap_singleton]
      rfl
    · rw [edit_of_not_fits hfits]
      exact h
  | reset => exact e.tidy_reset
  | resize size => exact absurd trivial hfree

theorem Tidy.editAll (h : e.Tidy kept) {edits : List Edit} (hfree : ∀ c ∈ edits, ¬c.Assigns) :
    (e.editAll edits).2.Tidy ((edits.zip (e.editAll edits).1).foldl keep kept) := by
  induction edits generalizing e kept with
  | nil => exact h
  | cons change rest ih =>
    obtain ⟨hnow, hlater⟩ := List.forall_mem_cons.mp hfree
    exact ih (h.edit hnow) hlater

/-- What is appended to an event that holds some sections of one size already: it is accepted as
long as there is room for as many as go into the buffer. -/
theorem answers_of_size {length taken : Nat} (hsize : e.size.toNat = taken * (headerSize + length))
    (htaken : taken ≤ room / (headerSize + length)) {sections : List Section}
    (h : ∀ s ∈ sections, s.payload.length = length) :
    (e.editAll (sections.map .append)).1 =
      List.replicate (min sections.length (room / (headerSize + length) - taken)) (some true) ++
        List.replicate (sections.length - (room / (headerSize + length) - taken)) (some false) := by
  induction sections generalizing e taken with
  | nil => simp [editAll]
  | cons s rest ih =>
    obtain ⟨hlength, hrest⟩ := List.forall_mem_cons.mp h
    have hpositive : 0 < headerSize + length := by
      unfold headerSize
      omega
    have hfits : e.Fits s.payload.length ↔ taken + 1 ≤ room / (headerSize + length) := by
      rw [Nat.le_div_iff_mul_le hpositive, Nat.succ_mul, Fits, hsize, hlength]
      omega
    rw [List.map_cons, editAll, List.length_cons]
    by_cases hroom : taken + 1 ≤ room / (headerSize + length)
    · have hnow := edit_of_fits (hfits.mpr hroom)
      have hsize' : (e.write s.owner s.dataType s.payload (hfits.mpr hroom)).size.toNat =
          (taken + 1) * (headerSize + length) := by
        rw [toNat_size_write, hsize, hlength, Nat.succ_mul, Nat.add_assoc]
      have hmin : min (rest.length + 1) (room / (headerSize + length) - taken) =
          min rest.length (room / (headerSize + length) - (taken + 1)) + 1 := by omega
      have hsub : rest.length + 1 - (room / (headerSize + length) - taken) =
          rest.length - (room / (headerSize + length) - (taken + 1)) := by omega
      rw [hnow, ih hsize' hroom hrest, hmin, hsub, List.replicate_succ, List.cons_append]
    · have hfull : room / (headerSize + length) - taken = 0 := by omega
      rw [edit_of_not_fits (fun hin => hroom (hfits.mp hin)), ih hsize htaken hrest, hfull]
      simp [List.replicate_succ]

end RawEvent

open RawEvent

/-- **A section is written whole or not at all**, whatever was done to the event before. It is
accepted if and only if it fits behind the used bytes; then its header, with the payload size in
two bytes, and its payload come behind those, and no other byte changes; if it is refused nothing
does. After a reset, as long as the size field is not set by hand, the used size stays within the
buffer and the used bytes are the sections accepted since; and of sections of one size the first
ones are accepted, as many as go into the buffer. -/
theorem appends_whole_or_not (e : RawEvent) (edits : List Edit) :
    let now := (e.editAll edits).2
    (∀ s : Section,
      let next := e.editAll (edits ++ [.append s])
      next.1 = (e.editAll edits).1 ++
          [some (decide (now.size.toNat + 4 + s.payload.length ≤ 1022))] ∧
        (now.size.toNat + 4 + s.payload.length ≤ 1022 →
          ∃ low high : UInt8, low.toNat + 256 * high.toNat = s.payload.length ∧
            now.Extends next.2 ([s.owner, s.dataType, low, high] ++ s.payload)) ∧
        (1022 < now.size.toNat + 4 + s.payload.length → next.2 = now)) ∧
    ((∀ change ∈ edits, ¬change.Assigns) →
      let after := e.editAll (.reset :: edits)
      after.2.size.toNat ≤ 1022 ∧
        after.2.sections = (accepted (.reset :: edits) after.1).flatMap Section.bytes) ∧
    ∀ (sections : List Section) (length : Nat), (∀ s ∈ sections, s.payload.length = length) →
      (e.editAll (edits ++ .reset :: sections.map .append)).1 =
        (e.editAll edits).1 ++ none ::
          (List.replicate (min sections.length (1022 / (4 + length))) (some true) ++
            List.replicate (sections.length - 1022 / (4 + length)) (some false)) := by
  intro now
  refine ⟨fun s => ?_, fun hfree => ?_, fun sections length h => ?_⟩
  · intro next
    have hnext : next = ((e.editAll edits).1 ++ [(now.edit (.append s)).1],
        (now.edit (.append s)).2) :=
      e.editAll_append edits [.append s]
    rw [hnext]
    refine ⟨?_, fun hfits => exists_size_bytes hfits, fun hfull => ?_⟩
    · rw [edit_append_fst]
      rfl
    · rw [edit_of_not_fits (Nat.not_le.mpr hfull)]
  · have htidy := e.tidy_reset.editAll hfree
    exact ⟨htidy.in_bounds, htidy.used⟩
  · have hblank : now.reset.size.toNat = 0 * (headerSize + length) := by
      simp [RawEvent.reset]
    have hanswers := answers_of_size hblank (Nat.zero_le _) h
    rw [editAll_append]
    exact congrArg (fun answers => (e.editAll edits).1 ++ none :: answers) hanswers

/-- Three sections of 337 bytes with their headers would take 1023 bytes: the third is refused. -/
example :
    (RawEvent.blank.editAll (.reset :: (List.replicate 3 (.append ⟨4, 1, List.replicate 337 7⟩)))).1 =
      [none, some true, some true, some false] := by
  decide +kernel

end Lifeline
