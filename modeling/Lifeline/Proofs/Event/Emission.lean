import Lifeline.Proofs.Event.Writing
import Lifeline.Proofs.Identity.Interference

/-! What a firing does to its event.

The store is brought up to date before the event is looked at, so it does not depend on what the
event can still take (`Firing.store_run_congr`). The event gets the tracking section of the buffer
that was identified, as the 32 bytes behind those in use, or stays as it is (`Firing.Writes`).

`tracked_whatever_room` says both of one firing. -/
namespace Lifeline

variable {event : RawEvent}

/-- The bytes of a tracking section: its header, the identity, the buffer and the drop reason. -/
theorem sectionBytes_trackingPayload (sighting : Sighting) :
    RawEvent.sectionBytes Owner.tracking.code RawEvent.defaultType
        (RawEvent.trackingPayload sighting) =
      [4, 1, 28, 0] ++ (LittleEndian.encode 8 sighting.identity.origHead.toNat ++
        LittleEndian.encode 8 sighting.identity.timestamp.toNat ++
        LittleEndian.encode 8 sighting.skb.toNat ++
        LittleEndian.encode 4 sighting.dropReason.toNat) := by
  rw [RawEvent.sectionBytes, RawEvent.length_trackingPayload]
  rfl

theorem fits_trackingPayload_iff (sighting : Sighting) :
    event.Fits (RawEvent.trackingPayload sighting).length ↔ event.size.toNat ≤ 990 := by
  rw [RawEvent.length_trackingPayload]
  simp only [RawEvent.Fits, RawEvent.headerSize, RawEvent.room, Owner.payloadSize]
  omega

theorem emit_of_room (h : event.size.toNat ≤ 990) (sighting : Sighting) :
    (emit event sighting).1 = .emitted ∧
      event.Extends (emit event sighting).2
        (RawEvent.sectionBytes Owner.tracking.code RawEvent.defaultType
          (RawEvent.trackingPayload sighting)) := by
  have hfits := (fits_trackingPayload_iff sighting).mpr h
  rw [emit, RawEvent.append?, dif_pos hfits]
  exact ⟨rfl, RawEvent.extends_write _ _ _ hfits⟩

theorem emit_of_full (h : 990 < event.size.toNat) (sighting : Sighting) :
    emit event sighting = (.sectionFull, event) := by
  have hfull : ¬event.Fits (RawEvent.trackingPayload sighting).length := fun hfits =>
    absurd ((fits_trackingPayload_iff sighting).mp hfits) (Nat.not_le.mpr h)
  rw [emit, RawEvent.append?, dif_neg hfull]

/-- The bytes of a section that tells of the buffer of a firing under an identity: the header, then
the identity, the buffer and the drop reason in words, lowest byte first. -/
def Firing.sectionOf (f : Firing) (i : Identity) : List UInt8 :=
  [4, 1, 28, 0] ++ (LittleEndian.encode 8 i.origHead.toNat ++
    LittleEndian.encode 8 i.timestamp.toNat ++ LittleEndian.encode 8 f.skb.toNat ++
    LittleEndian.encode 4 (dropReasonOf f.dropReason).toNat)

/-- The event of a firing has got a section of this identity behind what was in it, or it is as it
was because there was no room for one. -/
structure Firing.Writes (f : Firing) (i : Identity) (given : Outcome × RawEvent) : Prop where
  emitted : f.event.size.toNat ≤ 990 →
    given.1 = .emitted ∧ f.event.Extends given.2 (f.sectionOf i)
  full : 990 < f.event.size.toNat → given = (.sectionFull, f.event)

theorem Firing.writes_report (f : Firing) (i : Identity) : f.Writes i (f.report (some i)) where
  emitted hroom := by
    have hemitted := emit_of_room hroom ⟨i, f.skb, dropReasonOf f.dropReason⟩
    rwa [sectionBytes_trackingPayload] at hemitted
  full hfull := emit_of_full hfull _

/-- The store after a firing is the same whatever event and drop reason it was given. -/
theorem Firing.store_run_congr (f f' : Firing) (hbehavior : f'.behavior = f.behavior)
    (hobservation : f'.observation = f.observation) (s : Store) :
    (f'.program.run s).2 = (f.program.run s).2 := by
  rw [f.program_run, f'.program_run, identify, identify, hbehavior, hobservation]

/-- **Tracking does not depend on the room in the event**, and the event changes by one section or
not at all. Without a head nothing happens. Otherwise the store is the same afterwards whatever the
event and the drop reason; a used size of up to 990 takes the section, and then the 32 bytes behind
the used ones become its header and the identity, the buffer and the drop reason in words, lowest
byte first; behind any other used size the event stays as it is. -/
theorem tracked_whatever_room (f : Firing) (s : Store) :
    let given := (f.program.run s).1
    let after := (f.program.run s).2
    (given.1 = .noHead ↔ f.head = 0) ∧
      (f.head = 0 → given.2 = f.event ∧ after = s) ∧
      (∀ event dropReason,
        (Firing.program { f with event := event, dropReason := dropReason } |>.run s).2 = after) ∧
      (f.head ≠ 0 →
        (given.1 = .emitted ↔ f.event.size.toNat ≤ 990) ∧
        (given.1 = .sectionFull ↔ 990 < f.event.size.toNat) ∧
        (f.event.size.toNat ≤ 990 →
          given.2.size.toNat = f.event.size.toNat + 32 ∧
          ∃ i, f.reported s = some i ∧
            f.event.Extends given.2 ([4, 1, 28, 0] ++ (LittleEndian.encode 8 i.origHead.toNat ++
              LittleEndian.encode 8 i.timestamp.toNat ++ LittleEndian.encode 8 f.skb.toNat ++
              LittleEndian.encode 4 (dropReasonOf f.dropReason).toNat))) ∧
        (990 < f.event.size.toNat → given.2 = f.event)) := by
  intro given after
  have hgiven : given = f.report (f.reported s) := f.run_program s
  have hstore (event : RawEvent) (dropReason : Option UInt64) :
      (Firing.program { f with event := event, dropReason := dropReason } |>.run s).2 = after :=
    f.store_run_congr { f with event := event, dropReason := dropReason } rfl rfl s
  by_cases hhead : f.head = 0
  · have hnone : f.reported s = none := if_pos hhead
    have hafter : after = s := by
      show (f.program.run s).2 = s
      rw [Firing.program_of_no_head hhead]
      rfl
    rw [hgiven, hnone]
    exact ⟨⟨fun _ => hhead, fun _ => rfl⟩, fun _ => ⟨rfl, hafter⟩, hstore,
      fun hne => absurd hhead hne⟩
  · have hsome := f.reported_of_head hhead s
    have hwrites := f.writes_report (s.recordOf f.observation).identity
    rw [← hsome, ← hgiven] at hwrites
    by_cases hroom : f.event.size.toNat ≤ 990
    · obtain ⟨houtcome, hextends⟩ := hwrites.emitted hroom
      rw [houtcome]
      refine ⟨by simp [hhead], fun hzero => absurd hzero hhead, hstore, fun _ => ?_⟩
      refine ⟨by simp [hroom], by simp [hroom], fun _ => ⟨hextends.size, _, hsome, hextends⟩,
        fun hfull => ?_⟩
      exact absurd hroom (Nat.not_le.mpr hfull)
    · have hfull : 990 < f.event.size.toNat := Nat.not_le.mp hroom
      rw [hwrites.full hfull]
      refine ⟨by simp [hhead], fun hzero => absurd hzero hhead, hstore, fun _ => ?_⟩
      exact ⟨by simp [hroom], by simp [hfull], fun hin => absurd hin hroom, fun _ => rfl⟩

end Lifeline
