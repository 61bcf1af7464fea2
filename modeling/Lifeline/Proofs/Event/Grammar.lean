import Lifeline.Event.Decode

/-! What decoding accepts.

`Sections` is the grammar of sections back to back, and `Framed` that of a raw event: a size,
as many bytes of sections, and anything behind them. Cutting bytes into sections follows the
grammar (`split_of_sections`, `sections_of_split`), and gathering sections comes down to the last
section of each known owner, whose fields are numbers at fixed offsets (`told?`), unless one of them
has a wrong size (`Sized`).

`decode_iff_framed` says which bytes are an event and which one, and what decoding does not
look at. -/
namespace Lifeline

open LittleEndian (decode)

/-! ### Sections back to back -/

/-- Bytes and the sections that they are made of. -/
inductive Sections : List UInt8 → List Section → Prop where
  | nil : Sections [] []
  | cons (owner dataType low high : UInt8) {payload rest : List UInt8} {later : List Section}
      (hsize : payload.length = decode [low, high]) (hlater : Sections rest later) :
      Sections (owner :: dataType :: low :: high :: (payload ++ rest))
        (⟨owner, dataType, payload⟩ :: later)

theorem split_cons (owner dataType : UInt8) {low high : UInt8} {payload : List UInt8}
    (hsize : payload.length = decode [low, high]) (rest : List UInt8) :
    Event.split (owner :: dataType :: low :: high :: (payload ++ rest)) =
      (⟨owner, dataType, payload⟩ :: (Event.split rest).1, (Event.split rest).2) := by
  have hfits : decode [low, high] ≤ (payload ++ rest).length := by
    rw [List.length_append]
    omega
  rw [Event.split, if_pos hfits, List.take_left' hsize, List.drop_left' hsize]

theorem split_of_sections {bytes : List UInt8} {sections : List Section}
    (h : Sections bytes sections) : Event.split bytes = (sections, none) := by
  induction h with
  | nil => rw [Event.split]
  | cons owner dataType low high hsize hlater ih => rw [split_cons owner dataType hsize, ih]

theorem sections_of_split (bytes : List UInt8) (h : (Event.split bytes).2 = none) :
    Sections bytes (Event.split bytes).1 := by
  induction bytes using Event.split.induct with
  | case1 => rw [Event.split]; exact .nil
  | case2 owner dataType low high rest size hfits _ _ _ ih =>
    have hpayload : (rest.take size).length = size := List.length_take_of_le hfits
    have hcut := split_cons owner dataType hpayload (rest.drop size)
    rw [List.take_append_drop] at hcut
    rw [hcut] at h ⊢
    have hsections := Sections.cons owner dataType low high hpayload (ih h)
    rwa [List.take_append_drop] at hsections
  | case3 owner dataType low high rest size hfits =>
    rw [Event.split, if_neg hfits] at h
    exact absurd h (by simp)
  | case4 bytes hnil hcons =>
    rw [Event.split] at h
    · exact absurd h (by simp)
    · exact hnil
    · exact hcons

/-! ### What sections tell -/

/-- The payload of the last section of an owner. -/
def lastOf (o : Owner) (sections : List Section) : Option (List UInt8) :=
  (sections.reverse.find? fun s => s.owner == o.code).map Section.payload

/-- Sections of known owners have their sizes. -/
def Sized (sections : List Section) : Prop :=
  ∀ s ∈ sections, ∀ o : Owner, s.owner = o.code → s.payload.length = o.payloadSize

instance (sections : List Section) : Decidable (Sized sections) :=
  decidable_of_iff (∀ s ∈ sections, ∀ o ∈ Owner.ofCode? s.owner, s.payload.length = o.payloadSize)
    (by simp only [Sized, Option.mem_def, Owner.ofCode?_eq_some_iff])

/-- The number in `width` bytes of a payload, from an offset on, lowest byte first. -/
def field (payload : List UInt8) (offset width : Nat) : Nat :=
  decode ((payload.drop offset).take width)

/-- The event that sections tell of: of each known owner the last one counts. There is none
without a common section. -/
def told? (sections : List Section) : Option Event :=
  (lastOf .common sections).map fun common =>
    { timestamp := UInt64.ofNat (field common 0 8)
      function := (lastOf .kernel sections).map fun kernel => UInt64.ofNat (field kernel 0 8)
      sighting := (lastOf .tracking sections).map fun tracking =>
        { identity :=
            { origHead := UInt64.ofNat (field tracking 0 8)
              timestamp := UInt64.ofNat (field tracking 8 8) }
          skb := UInt64.ofNat (field tracking 16 8)
          dropReason := UInt32.ofNat (field tracking 24 4) } }

theorem lastOf_cons (o : Owner) (s : Section) (rest : List Section) :
    lastOf o (s :: rest) =
      (lastOf o rest).or (if s.owner = o.code then some s.payload else none) := by
  unfold lastOf
  rw [List.reverse_cons, List.find?_append]
  cases rest.reverse.find? fun s => s.owner == o.code with
  | some found => rfl
  | none =>
    by_cases howner : s.owner = o.code
    · simp [howner]
    · simp [howner]

theorem lastOf_cons_of_ne {o : Owner} {s : Section} (h : s.owner ≠ o.code) (rest : List Section) :
    lastOf o (s :: rest) = lastOf o rest := by
  rw [lastOf_cons, if_neg h, Option.or_none]

theorem Owner.code_injective {o o' : Owner} (h : o.code = o'.code) : o = o' := by
  have hsame := (Owner.ofCode?_code o).symm.trans (h ▸ Owner.ofCode?_code o')
  exact Option.some.inj hsame

theorem exists_lastOf_iff (o : Owner) (sections : List Section) :
    (∃ payload, lastOf o sections = some payload) ↔ ∃ s ∈ sections, s.owner = o.code := by
  induction sections with
  | nil => simp [lastOf]
  | cons s rest ih =>
    rw [lastOf_cons]
    cases hrest : lastOf o rest with
    | some payload =>
      obtain ⟨s', hs', howner⟩ := ih.mp ⟨payload, hrest⟩
      simp only [Option.some_or, Option.some.injEq, exists_eq', true_iff]
      exact ⟨s', List.mem_cons_of_mem s hs', howner⟩
    | none =>
      rw [hrest] at ih
      simp only [reduceCtorEq, exists_false, false_iff] at ih
      by_cases howner : s.owner = o.code <;> simp [howner, ih]

theorem told?_isSome_iff (sections : List Section) :
    (∃ e, told? sections = some e) ↔ ∃ s ∈ sections, s.owner = Owner.common.code := by
  rw [← exists_lastOf_iff]
  unfold told?
  cases lastOf .common sections <;> simp

theorem Sized.length_lastOf {sections : List Section} (h : Sized sections) {o : Owner}
    {payload : List UInt8} (hlast : lastOf o sections = some payload) :
    payload.length = o.payloadSize := by
  obtain ⟨s, hfound, rfl⟩ := Option.map_eq_some_iff.mp hlast
  have howner : s.owner = o.code := by simpa using List.find?_some hfound
  exact h s (List.mem_reverse.mp (List.mem_of_find?_eq_some hfound)) o howner

theorem sized_cons {s : Section} {rest : List Section} :
    Sized (s :: rest) ↔
      (∀ o : Owner, s.owner = o.code → s.payload.length = o.payloadSize) ∧ Sized rest :=
  List.forall_mem_cons

/-! ### Gathering -/

namespace Draft

/-- The draft with all sections read into it. -/
def readAll (d : Draft) (sections : List Section) : Draft where
  timestamp := ((lastOf .common sections).map Event.readWord).or d.timestamp
  function := ((lastOf .kernel sections).map Event.readWord).or d.function
  sighting := ((lastOf .tracking sections).map Event.readSighting).or d.sighting

theorem readAll_cons_of_known (d : Draft) {o : Owner} {s : Section} (h : s.owner = o.code)
    (rest : List Section) : (d.read o s.payload).readAll rest = d.readAll (s :: rest) := by
  have hothers (o' : Owner) (hne : o' ≠ o) : lastOf o' (s :: rest) = lastOf o' rest :=
    lastOf_cons_of_ne (fun heq => hne (Owner.code_injective (heq.symm.trans h))) rest
  have hown : lastOf o (s :: rest) = (lastOf o rest).or (some s.payload) := by
    rw [lastOf_cons, if_pos h]
  unfold readAll
  cases o with
  | common =>
    rw [hown, hothers .kernel (by decide), hothers .tracking (by decide)]
    cases lastOf .common rest <;> rfl
  | kernel =>
    rw [hown, hothers .common (by decide), hothers .tracking (by decide)]
    cases lastOf .kernel rest <;> rfl
  | tracking =>
    rw [hown, hothers .common (by decide), hothers .kernel (by decide)]
    cases lastOf .tracking rest <;> rfl

theorem readAll_cons_of_unknown (d : Draft) {s : Section} (h : Owner.ofCode? s.owner = none)
    (rest : List Section) : d.readAll (s :: rest) = d.readAll rest := by
  have hothers (o : Owner) : lastOf o (s :: rest) = lastOf o rest := by
    refine lastOf_cons_of_ne (fun howner => ?_) rest
    rw [howner, Owner.ofCode?_code] at h
    exact absurd h (by simp)
  simp only [readAll, hothers]

theorem readWord_eq_field {payload : List UInt8} (h : payload.length = 8) :
    Event.readWord payload = UInt64.ofNat (field payload 0 8) := by
  rw [Event.readWord, field, List.drop_zero, List.take_of_length_le (Nat.le_of_eq h)]

theorem readSighting_eq_fields {payload : List UInt8}
    (h : payload.length = Owner.tracking.payloadSize) :
    Event.readSighting payload =
      { identity :=
          { origHead := UInt64.ofNat (field payload 0 8)
            timestamp := UInt64.ofNat (field payload 8 8) }
        skb := UInt64.ofNat (field payload 16 8)
        dropReason := UInt32.ofNat (field payload 24 4) } := by
  have hreason : (payload.drop 24).take 4 = payload.drop 24 := by
    apply List.take_of_length_le
    rw [List.length_drop, h]
    decide
  rw [Event.readSighting, field, field, field, field, hreason]
  rfl

/-- Sections of the right sizes are read for what their fields tell. -/
theorem finish_readAll_blank {sections : List Section} (h : Sized sections) (e : Event) :
    (blank.readAll sections).finish = .ok e ↔ told? sections = some e := by
  have hword {o : Owner} (hsize : o.payloadSize = 8) :
      (lastOf o sections).map Event.readWord =
        (lastOf o sections).map fun payload => UInt64.ofNat (field payload 0 8) :=
    Option.map_congr fun payload hlast =>
      readWord_eq_field ((h.length_lastOf hlast).trans hsize)
  have hsighting := Option.map_congr (x := lastOf .tracking sections) fun payload hlast =>
    readSighting_eq_fields (h.length_lastOf hlast)
  unfold finish readAll told? blank
  rw [hword (o := .common) rfl, hword (o := .kernel) rfl, hsighting]
  cases lastOf .common sections with
  | none => simp
  | some payload => simp [Option.or_none]

/-- Sections of the right sizes are all read; then the end decides. -/
theorem gather_of_sized (ending : Option DecodeError) (d : Draft) {sections : List Section}
    (h : Sized sections) :
    (d.gather ending sections).result =
      match ending with
      | some fault => .error fault
      | none => (d.readAll sections).finish := by
  induction sections generalizing d with
  | nil => cases ending <;> rfl
  | cons s rest ih =>
    obtain ⟨hnow, hlater⟩ := sized_cons.mp h
    rw [gather]
    cases howner : Owner.ofCode? s.owner with
    | none => rw [readAll_cons_of_unknown d howner]; exact ih d hlater
    | some o =>
      have hcode := Owner.ofCode?_eq_some_iff.mp howner
      rw [← readAll_cons_of_known d hcode]
      simp only [hnow o hcode, if_true]
      exact ih (d.read o s.payload) hlater

theorem gather_of_not_sized (ending : Option DecodeError) (d : Draft) {sections : List Section}
    (h : ¬Sized sections) : ∃ fault, (d.gather ending sections).result = .error fault := by
  induction sections generalizing d with
  | nil => exact absurd (fun s hs => absurd hs List.not_mem_nil) h
  | cons s rest ih =>
    rw [sized_cons] at h
    rw [gather]
    cases howner : Owner.ofCode? s.owner with
    | none =>
      refine ih d fun hlater => h ⟨fun o hcode => ?_, hlater⟩
      rw [Owner.ofCode?_eq_some_iff.mpr hcode] at howner
      exact absurd howner (by simp)
    | some o =>
      have hcode := Owner.ofCode?_eq_some_iff.mp howner
      by_cases hsize : s.payload.length = o.payloadSize
      · simp only [hsize, if_true]
        refine ih (d.read o s.payload) fun hlater => h ⟨fun o' hcode' => ?_, hlater⟩
        rw [← Owner.code_injective (hcode.symm.trans hcode')]
        exact hsize
      · simp only [hsize, if_false]
        exact ⟨_, rfl⟩

theorem gather_eq_ok_iff (ending : Option DecodeError) (sections : List Section) (e : Event) :
    (blank.gather ending sections).result = .ok e ↔
      ending = none ∧ Sized sections ∧ told? sections = some e := by
  by_cases hsized : Sized sections
  · rw [gather_of_sized ending blank hsized, ← finish_readAll_blank hsized]
    cases ending <;> simp [hsized]
  · obtain ⟨fault, hfault⟩ := gather_of_not_sized ending blank hsized
    simp [hfault, hsized]

/-- The data types of sections are not looked at. -/
theorem gather_congr (ending : Option DecodeError) (d : Draft) {sections sections' : List Section}
    (h : sections'.map (fun s => (s.owner, s.payload)) =
      sections.map fun s => (s.owner, s.payload)) :
    d.gather ending sections' = d.gather ending sections := by
  induction sections generalizing d sections' with
  | nil =>
    rw [List.map_nil, List.map_eq_nil_iff] at h
    rw [h]
  | cons s rest ih =>
    obtain ⟨s', rest', rfl, hnow, hlater⟩ := List.map_eq_cons_iff.mp h
    obtain ⟨howner, hpayload⟩ := Prod.mk.inj hnow
    rw [gather, gather, howner, hpayload]
    split
    · rw [ih d hlater]
    · rw [ih _ hlater]

end Draft

/-! ### Raw events -/

/-- Bytes and the sections that they announce: a size, as many bytes of sections, and anything
behind them. -/
inductive Framed : List UInt8 → List Section → Prop where
  | intro (low high : UInt8) {body : List UInt8} (tail : List UInt8) {sections : List Section}
      (hsize : body.length = decode [low, high]) (hroom : body.length ≤ RawEvent.room)
      (hbody : Sections body sections) : Framed (low :: high :: (body ++ tail)) sections

/-- Sections that differ in data types only, also in that of a last section which is cut
short, in its payload or in its header. -/
inductive Retyped : List UInt8 → List UInt8 → Prop where
  | same (bytes : List UInt8) : Retyped bytes bytes
  | next (owner dataType dataType' low high : UInt8) {payload rest rest' : List UInt8}
      (hsize : payload.length = decode [low, high]) (hlater : Retyped rest rest') :
      Retyped (owner :: dataType :: low :: high :: (payload ++ rest))
        (owner :: dataType' :: low :: high :: (payload ++ rest'))
  | cut (owner dataType dataType' low high : UInt8) {rest : List UInt8}
      (hcut : rest.length < decode [low, high]) :
      Retyped (owner :: dataType :: low :: high :: rest) (owner :: dataType' :: low :: high :: rest)
  | stub (owner dataType dataType' : UInt8) {rest : List UInt8} (hstub : rest.length < 2) :
      Retyped (owner :: dataType :: rest) (owner :: dataType' :: rest)

theorem Retyped.length_eq {bytes bytes' : List UInt8} (h : Retyped bytes bytes') :
    bytes'.length = bytes.length := by
  induction h with
  | same | cut | stub => rfl
  | next owner dataType dataType' low high hsize hlater ih => simp [ih]

theorem Retyped.split_eq {bytes bytes' : List UInt8} (h : Retyped bytes bytes') :
    (Event.split bytes').2 = (Event.split bytes).2 ∧
      (Event.split bytes').1.map (fun s => (s.owner, s.payload)) =
        (Event.split bytes).1.map fun s => (s.owner, s.payload) := by
  induction h with
  | same => exact ⟨rfl, rfl⟩
  | next owner dataType dataType' low high hsize hlater ih =>
    rw [split_cons owner dataType hsize, split_cons owner dataType' hsize]
    exact ⟨ih.1, by rw [List.map_cons, List.map_cons, ih.2]⟩
  | cut owner dataType dataType' low high hcut =>
    have hshort := Nat.not_le_of_lt hcut
    rw [Event.split, Event.split, if_neg hshort, if_neg hshort]
    exact ⟨rfl, rfl⟩
  | @stub owner dataType dataType' rest hstub =>
    rcases rest with _ | ⟨low, _ | ⟨high, later⟩⟩
    · exact ⟨by simp [Event.split], by simp [Event.split]⟩
    · exact ⟨by simp [Event.split], by simp [Event.split]⟩
    · simp only [List.length_cons] at hstub
      omega

/-- What is decoded of a size and as many bytes, whatever lies behind them. -/
theorem decode_body {low high : UInt8} {body : List UInt8}
    (hsize : body.length = decode [low, high]) (tail : List UInt8) :
    Event.decode (low :: high :: (body ++ tail)) =
      if body.length ≤ RawEvent.room then
        Draft.blank.gather (Event.split body).2 (Event.split body).1
      else ⟨[], .error (.invalidSize body.length)⟩ := by
  rw [Event.decode, ← hsize, List.take_left' rfl]
  have hfits : ¬body.length > (body ++ tail).length := by
    rw [List.length_append]
    omega
  by_cases hroom : body.length ≤ RawEvent.room
  · rw [if_neg (not_or.mpr ⟨Nat.not_lt.mpr hroom, hfits⟩), if_pos hroom]
  · rw [if_pos (.inl (Nat.not_le.mp hroom)), if_neg hroom]

theorem decode_of_framed {bytes : List UInt8} {sections : List Section}
    (h : Framed bytes sections) : Event.decode bytes = Draft.blank.gather none sections := by
  cases h with
  | intro low high tail hsize hroom hbody =>
    rw [decode_body hsize, if_pos hroom, split_of_sections hbody]

/-- Bytes that are an event begin with its size and have as many bytes behind it. -/
theorem framed_of_decode {bytes : List UInt8} {e : Event}
    (h : (Event.decode bytes).result = .ok e) : ∃ sections, Framed bytes sections := by
  match bytes with
  | [] | [_] => exact absurd h (by simp [Event.decode])
  | low :: high :: rest =>
    by_cases hlength : decode [low, high] ≤ rest.length
    · have hsize := List.length_take_of_le hlength
      have hdecode := decode_body hsize (rest.drop (decode [low, high]))
      rw [List.take_append_drop] at hdecode
      rw [hdecode] at h
      split at h
      · rename_i hroom
        have hending := ((Draft.gather_eq_ok_iff _ _ e).mp h).1
        have hframed := Framed.intro low high (rest.drop (decode [low, high])) hsize hroom
          (sections_of_split _ hending)
        rw [List.take_append_drop] at hframed
        exact ⟨_, hframed⟩
      · exact absurd h (by simp)
    · rw [Event.decode, if_pos (.inr (Nat.not_le.mp hlength))] at h
      exact absurd h (by simp)

/-- **Bytes are an event exactly if they announce sections of the right sizes, one of them a
common one**, and then it is the event that the last section of each known owner tells of; all
other bytes give an error. Neither what lies behind the announced bytes nor the data type of
a section makes a difference to anything. -/
theorem decode_iff_framed (bytes : List UInt8) :
    (∀ e, (Event.decode bytes).result = .ok e ↔
      ∃ sections, Framed bytes sections ∧ Sized sections ∧ told? sections = some e) ∧
    ((∃ fault, (Event.decode bytes).result = .error fault) ↔
      ¬∃ sections, Framed bytes sections ∧ Sized sections ∧
        ∃ s ∈ sections, s.owner = Owner.common.code) ∧
    ∀ low high body body' tail tail', bytes = low :: high :: (body ++ tail) →
      body.length = decode [low, high] → Retyped body body' →
      Event.decode (low :: high :: (body' ++ tail')) = Event.decode bytes := by
  have hok (e : Event) : (Event.decode bytes).result = .ok e ↔
      ∃ sections, Framed bytes sections ∧ Sized sections ∧ told? sections = some e := by
    constructor
    · intro h
      obtain ⟨sections, hframed⟩ := framed_of_decode h
      rw [decode_of_framed hframed, Draft.gather_eq_ok_iff] at h
      exact ⟨sections, hframed, h.2⟩
    · rintro ⟨sections, hframed, htold⟩
      rw [decode_of_framed hframed, Draft.gather_eq_ok_iff]
      exact ⟨rfl, htold⟩
  refine ⟨hok, ?_, ?_⟩
  · simp only [← told?_isSome_iff]
    constructor
    · rintro ⟨fault, hfault⟩ ⟨sections, hframed, hsized, e, htold⟩
      rw [(hok e).mpr ⟨sections, hframed, hsized, htold⟩] at hfault
      exact absurd hfault (by simp)
    · intro hnone
      cases hresult : (Event.decode bytes).result with
      | error fault => exact ⟨fault, rfl⟩
      | ok e =>
        obtain ⟨sections, hframed, hsized, htold⟩ := (hok e).mp hresult
        exact absurd ⟨sections, hframed, hsized, e, htold⟩ hnone
  · rintro low high body body' tail tail' rfl hsize hretyped
    obtain ⟨hending, hsections⟩ := hretyped.split_eq
    rw [decode_body hsize, decode_body (hretyped.length_eq.trans hsize), hretyped.length_eq,
      hending, Draft.gather_congr _ _ hsections]

/-- A time, an empty section of an owner that is not known, and another time. -/
def twiceTimed (dataType : UInt8) : List UInt8 :=
  1 :: dataType :: 8 :: 0 :: ([5, 0, 0, 0, 0, 0, 0, 0] ++
    9 :: 7 :: 0 :: 0 :: ([] ++ 1 :: 1 :: 8 :: 0 :: ([6, 0, 0, 0, 0, 0, 0, 0] ++ [])))

/-- The later time counts; the byte behind the sections and a data type do not. -/
theorem twiceTimed_decoded :
    (Event.decode (28 :: 0 :: (twiceTimed 1 ++ [255]))).result = .ok ⟨6, none, none⟩ ∧
      (twiceTimed 1).length = decode [28, 0] ∧ Retyped (twiceTimed 1) (twiceTimed 2) ∧
      Event.decode (28 :: 0 :: (twiceTimed 2 ++ [])) =
        Event.decode (28 :: 0 :: (twiceTimed 1 ++ [255])) := by
  have hall := decode_iff_framed (28 :: 0 :: (twiceTimed 1 ++ [255]))
  have hsections : Sections (twiceTimed 1) [⟨1, 1, [5, 0, 0, 0, 0, 0, 0, 0]⟩, ⟨9, 7, []⟩,
      ⟨1, 1, [6, 0, 0, 0, 0, 0, 0, 0]⟩] :=
    .cons 1 1 8 0 rfl (.cons 9 7 0 0 rfl (.cons 1 1 8 0 rfl .nil))
  have hretyped : Retyped (twiceTimed 1) (twiceTimed 2) := .next 1 1 2 8 0 rfl (.same _)
  have hframed := Framed.intro 28 0 [255] rfl (by decide) hsections
  exact ⟨(hall.1 _).mpr ⟨_, hframed, by decide, by decide⟩, rfl, hretyped,
    hall.2.2 28 0 _ _ [255] [] rfl rfl hretyped⟩

end Lifeline
