import Lifeline.Proofs.Event.RoundTrip
import Lifeline.Proofs.Identity.Sequence
import Lifeline.Session.Watch

/-! From the probe to the collector.

A call of a probed function may send an event, and `Machine.message?` says which one, from the
maps, the memory and the registers alone. The program writes that event and no other
(`probe_cases`), whatever was left in the place that it reserved: its three sections always
fit, and they read back as they were written (`decode_emit_opening`).

A `Link` is a machine with a collector at the other end of its ring. `calls_delivered` says what
becomes of the events of a link, whatever happens to its maps and memory between the calls. -/
namespace Lifeline

/-! ### Its event -/

namespace Kernel

/-- Whether an event is sent before the program leaves. -/
def Exit.sends : Exit → Bool
  | .sectionFull | .tracked => true
  | .noConfig | .noSkb | .reserveFailed | .discarded | .noHead => false

/-- Time and function always fit, whatever was left in the place of the event. -/
theorem exists_opening? (slot : RawEvent) (i : Invocation) :
    ∃ event, opening? slot i = some event ∧ event.size.toNat = 24 ∧
      event.sections =
        RawEvent.sectionBytes Owner.common.code RawEvent.defaultType
            (RawEvent.commonPayload i.timestamp) ++
          RawEvent.sectionBytes Owner.kernel.code RawEvent.defaultType
            (RawEvent.kernelPayload i.function) := by
  have hfirst : slot.reset.Fits (RawEvent.commonPayload i.timestamp).length := by
    rw [RawEvent.length_commonPayload]
    exact Nat.le_of_ble_eq_true rfl
  have hsecond : (slot.reset.write Owner.common.code RawEvent.defaultType
      (RawEvent.commonPayload i.timestamp) hfirst).Fits
        (RawEvent.kernelPayload i.function).length := by
    rw [RawEvent.Fits, RawEvent.toNat_size_write, RawEvent.length_commonPayload,
      RawEvent.length_kernelPayload]
    exact Nat.le_of_ble_eq_true rfl
  have hopened : opening? slot i = some (RawEvent.write _ Owner.kernel.code RawEvent.defaultType
      (RawEvent.kernelPayload i.function) hsecond) := by
    rw [opening?, RawEvent.append?, dif_pos hfirst, Option.bind_eq_bind, Option.bind_some,
      RawEvent.append?, dif_pos hsecond]
  refine ⟨_, hopened, ?_, ?_⟩
  · rw [RawEvent.toNat_size_write, RawEvent.toNat_size_write, RawEvent.length_commonPayload,
      RawEvent.length_kernelPayload]
    rfl
  · rw [RawEvent.sections_write, RawEvent.sections_write, RawEvent.sections_reset, List.nil_append]

/-- The tracking section fits behind time and function, and the event reads back. -/
theorem decode_emit_opening {slot : RawEvent} {i : Invocation} {event : RawEvent}
    (hopened : opening? slot i = some event) (s : Sighting) :
    ∃ written, emit event s = (.emitted, written) ∧
      (Event.decode written.bytes).result = .ok ⟨i.timestamp, some i.function, some s⟩ := by
  obtain ⟨_, hsome, hsize, hsections⟩ := exists_opening? slot i
  cases hsome.symm.trans hopened
  have hfits : event.Fits (RawEvent.trackingPayload s).length := by
    rw [RawEvent.Fits, hsize, RawEvent.length_trackingPayload]
    decide
  refine ⟨_, by rw [emit, RawEvent.append?, dif_pos hfits], ?_⟩
  have hwritten : (event.write Owner.tracking.code RawEvent.defaultType
      (RawEvent.trackingPayload s) hfits).sections =
        (Event.written i.timestamp i.function s).flatMap Section.bytes := by
    rw [RawEvent.sections_write, hsections]
    simp [Event.written, Section.bytes]
  rw [RawEvent.decode_of_sections (RawEvent.inBounds_write ..) hwritten fun _ hsec =>
    Event.short_of_mem_written _ _ _ hsec, Draft.gather_eq_ok_iff]
  exact ⟨rfl, Event.sized_written _ _ s, Event.told?_written ..⟩

/-! ### One call -/

namespace Machine

/-- Who a buffer is: whose record lies under its head, or else under its address; otherwise
the buffer is new. -/
def identityOf (m : Machine) (head skb : Address) (now : Nanos) : Identity :=
  ((m.tracked.identityAt head).or (m.tracked.identityAt skb)).getD ⟨head, now⟩

/-- What a call tells of the buffer in a register. -/
def messageOf (m : Machine) (i : Invocation) (offsets : Offsets) (position : Nat) : Event where
  timestamp := i.timestamp
  function := some i.function
  sighting := some
    { identity := m.identityOf (m.headOf (i.register position)) (i.register position) i.timestamp
      skb := i.register position
      dropReason :=
        match offsets.dropReason? with
        | some reason => (i.register reason).toUInt32
        | none => 0 }

/-- The event of a call. There is none if the function is not configured or takes no buffer, if
the buffer is null or has no head, or if the ring is full. -/
def message? (m : Machine) (i : Invocation) : Option Event :=
  match m.probes.get? i.function with
  | none => none
  | some offsets =>
    match offsets.skBuff? with
    | none => none
    | some position =>
      if i.register position = 0 ∨ m.ring.isFull ∨ m.headOf (i.register position) = 0 then none
      else some (m.messageOf i offsets position)

theorem sighting_of_message? {m : Machine} {i : Invocation} {e : Event}
    (h : m.message? i = some e) : e.sighting.isSome := by
  unfold message? at h
  repeat' split at h
  all_goals cases h
  rfl

theorem follow_of_no_head (m : Machine) (event : RawEvent) (dropReason : Option UInt64)
    {o : Observation} (h : o.head = 0) : m.follow event dropReason o = (.noHead, m) := by
  have hrun := Firing.program_run ⟨m.behaviorOf o.function, dropReason, event, o⟩ m.tracked
  simp only [Firing.program, Firing.identify, observe_run_of_no_head _ _ _ h,
    Firing.report] at hrun
  rw [follow, hrun]

theorem follow_opening (m : Machine) {slot : RawEvent} {i : Invocation} {opened : RawEvent}
    (hopened : opening? slot i = some opened) (dropReason : Option UInt64) {o : Observation}
    (h : o.head ≠ 0) :
    ∃ (event : RawEvent) (tracked : Store), m.follow opened dropReason o =
        (.tracked, { m with tracked := tracked, ring := m.ring.push event.bytes }) ∧
      (Event.decode event.bytes).result =
        .ok ⟨i.timestamp, some i.function,
          some ⟨m.identityOf o.head o.skb o.timestamp, o.skb, dropReasonOf dropReason⟩⟩ := by
  have hrun := Firing.program_run ⟨m.behaviorOf o.function, dropReason, opened, o⟩ m.tracked
  simp only [Firing.program, Firing.identify, observe_run _ _ _ h, Firing.report] at hrun
  obtain ⟨event, hemit, hdecode⟩ := decode_emit_opening hopened
    ⟨(m.tracked.recordOf o).identity, o.skb, dropReasonOf dropReason⟩
  refine ⟨event, m.tracked.observed (m.behaviorOf o.function) o, ?_, ?_⟩
  · rw [follow, hrun, hemit]
  · rw [hdecode, Store.identity_recordOf]
    rfl

/-- Either there is no event, and the program leaves everything as it is, or it sends the event
of the call. Its sections always fit, so no event is given back for want of room. -/
theorem probe_cases (m : Machine) (slot : RawEvent) (i : Invocation) :
    (∃ exit : Exit, exit.sends = false ∧ exit ≠ .discarded ∧ m.message? i = none ∧
      m.probe slot i = (exit, m)) ∨
    ∃ (e : Event) (event : RawEvent) (tracked : Store), m.message? i = some e ∧
      (Event.decode event.bytes).result = .ok e ∧ m.probe slot i =
        (.tracked, { m with tracked := tracked, ring := m.ring.push event.bytes }) := by
  obtain ⟨opened, hopened, -⟩ := exists_opening? slot i
  unfold probe message? Invocation.skb?
  rw [hopened]
  cases m.probes.get? i.function with
  | none => exact .inl ⟨.noConfig, rfl, by decide, rfl, rfl⟩
  | some offsets =>
    simp only
    cases offsets.skBuff? with
    | none => exact .inl ⟨.noSkb, rfl, by decide, rfl, rfl⟩
    | some position =>
      simp only
      by_cases hnull : i.register position = 0
      · exact .inl ⟨.noSkb, rfl, by decide, by simp [hnull], by simp [hnull]⟩
      by_cases hfull : m.ring.isFull
      · exact .inl ⟨.reserveFailed, rfl, by decide, by simp [hfull], by simp [hnull, hfull]⟩
      by_cases hhead : m.headOf (i.register position) = 0
      · refine .inl ⟨.noHead, rfl, by decide, by simp [hhead], ?_⟩
        simp only [hnull, hfull, if_false]
        exact m.follow_of_no_head _ _ hhead
      · obtain ⟨event, tracked, hfollow, hdecode⟩ := m.follow_opening (o := ⟨i.function,
          i.timestamp, i.register position, m.headOf (i.register position)⟩) hopened
          (i.dropReason? offsets) hhead
        refine .inr ⟨m.messageOf i offsets position, event, tracked, by simp [hnull, hfull, hhead],
          ?_, ?_⟩
        · rw [hdecode, messageOf, Invocation.dropReason?]
          cases offsets.dropReason? <;> rfl
        · simp only [hnull, hfull, if_false]
          exact hfollow

/-- What a call does to the ring. -/
theorem fire_cases (m : Machine) (slot : RawEvent) (i : Invocation) :
    (m.message? i = none ∧ (m.fire slot i).2.ring = m.ring) ∨
    ∃ e bytes, m.message? i = some e ∧ (Event.decode bytes).result = .ok e ∧
      (m.fire slot i).2.ring = m.ring.push bytes := by
  have hcases := (m.count .totalEvents).probe_cases slot i
  -- the first count leaves alone what the message depends on
  rw [show (m.count .totalEvents).message? i = m.message? i from rfl] at hcases
  obtain ⟨exit, -, -, hnone, hprobe⟩ | ⟨e, event, tracked, hsome, hdecode, hprobe⟩ := hcases
  · refine .inl ⟨hnone, ?_⟩
    rw [fire, hprobe]
    cases exit <;> rfl
  · exact .inr ⟨e, event.bytes, hsome, hdecode, by rw [fire, hprobe]; rfl⟩

end Machine

theorem Counter.index_injective {counter other : Counter} (h : counter.index = other.index) :
    counter = other := by
  cases counter <;> cases other <;> first | rfl | exact absurd h (by decide)

theorem Counters.get?_increment_of_ne (c : Counters) {counter other : Counter}
    (h : counter ≠ other) : (c.increment counter).get? other.index = c.get? other.index := by
  unfold increment write
  cases hput : c.put? counter.index (next (c.get? counter.index)) with
  | none => rfl
  | some c' =>
    rw [Option.getD_some, BoundedMap.get?_put? hput,
      if_neg fun hindex => h (Counter.index_injective hindex)]

/-- No call counts a section that did not fit. -/
theorem Machine.sectionFull_fire (m : Machine) (slot : RawEvent) (i : Invocation) :
    (m.fire slot i).2.counters.get? Counter.sectionFull.index =
      m.counters.get? Counter.sectionFull.index := by
  have htotal : (m.count .totalEvents).counters.get? Counter.sectionFull.index =
      m.counters.get? Counter.sectionFull.index :=
    Counters.get?_increment_of_ne m.counters (by decide)
  obtain ⟨exit, hexit, -, -, hprobe⟩ | ⟨_, event, tracked, -, -, hprobe⟩ :=
    (m.count .totalEvents).probe_cases slot i
  · rw [fire, hprobe, ← htotal]
    cases exit with
    | discarded => rfl
    | sectionFull | tracked => cases hexit
    | noConfig | noSkb | reserveFailed | noHead =>
      exact Counters.get?_increment_of_ne _ (by decide)
  · rw [fire, hprobe, ← htotal]
    exact Counters.get?_increment_of_ne _ (by decide)

end Kernel

/-! ### Machine and collector -/

open Kernel

/-- A machine, and a collector that reads from its ring. -/
structure Link where
  machine : Machine
  collector : Collector

namespace Link

/-- What happens on a link. -/
inductive Step where
  /-- A function is called while the next place in the ring holds `slot`. -/
  | call (slot : RawEvent) (i : Invocation)
  /-- Maps and memory become those of another machine; the ring and the counters stay. -/
  | change (other : Machine)
  /-- All waiting events are read. -/
  | read (verbose : Bool)

def step (l : Link) : Step → Link
  | .call slot i => { l with machine := (l.machine.fire slot i).2 }
  | .change other =>
    { l with machine := { other with ring := l.machine.ring, counters := l.machine.counters } }
  | .read verbose =>
    let (events, machine) := l.machine.drain
    ⟨machine, (l.collector.receiveAll verbose events).2⟩

/-- Steps one after another. -/
def run (l : Link) : List Step → Link
  | [] => l
  | s :: rest => (l.step s).run rest

theorem run_append (l : Link) (steps later : List Step) :
    l.run (steps ++ later) = (l.run steps).run later := by
  induction steps generalizing l with
  | nil => rfl
  | cons s rest ih => exact ih _

/-- Reading is what a session does with its machine and its collector. -/
theorem step_read_eq_readEvents (verbose : Bool) (watch : Session.Watch) (w : Session.World) :
    let l := (⟨w.machine, watch.collector⟩ : Link).step (.read verbose)
    ∃ log, (Session.readEvents verbose watch).run w =
      (.ok { watch with collector := l.collector }, { w with machine := l.machine, log := log }) :=
  ⟨_, rfl⟩

/-- The events that a step puts into the ring, as bytes. -/
def submittedBy (l : Link) : Step → List (List UInt8)
  | .call slot i => (l.machine.fire slot i).2.ring.waiting.drop l.machine.ring.waiting.length
  | _ => []

/-- The bytes that steps one after another put into the ring. -/
def submitted (l : Link) : List Step → List (List UInt8)
  | [] => []
  | s :: rest => l.submittedBy s ++ (l.step s).submitted rest

/-- The event of a step, if it has one. -/
def messagesBy (l : Link) : Step → List Event
  | .call _ i => (l.machine.message? i).toList
  | _ => []

/-- The events of steps one after another. -/
def messages (l : Link) : List Step → List Event
  | [] => []
  | s :: rest => l.messagesBy s ++ (l.step s).messages rest

/-! ### What is submitted -/

theorem decode_submittedBy (l : Link) (s : Step) :
    (l.submittedBy s).map (fun bytes => (Event.decode bytes).result) =
      (l.messagesBy s).map .ok := by
  cases s with
  | call slot i =>
    unfold submittedBy messagesBy
    obtain ⟨hnone, hring⟩ | ⟨e, bytes, hsome, hdecode, hring⟩ := l.machine.fire_cases slot i
    · simp [hnone, hring]
    · simp [hsome, hring, hdecode, Ring.push]
  | change | read => rfl

theorem decode_submitted (l : Link) (steps : List Step) :
    (l.submitted steps).map (fun bytes => (Event.decode bytes).result) =
      (l.messages steps).map .ok := by
  induction steps generalizing l with
  | nil => rfl
  | cons s rest ih =>
    rw [submitted, messages, List.map_append, List.map_append, decode_submittedBy, ih]

theorem sighting_of_mem_messages {l : Link} {steps : List Step} {e : Event}
    (h : e ∈ l.messages steps) : e.sighting.isSome := by
  induction steps generalizing l with
  | nil => cases h
  | cons s rest ih =>
    rcases List.mem_append.mp h with hnow | hlater
    · cases s with
      | call slot i => exact Machine.sighting_of_message? (Option.mem_toList.mp hnow)
      | change | read => cases hnow
    · exact ih hlater

theorem sectionFull_run (l : Link) (steps : List Step) :
    (l.run steps).machine.counters.get? Counter.sectionFull.index =
      l.machine.counters.get? Counter.sectionFull.index := by
  induction steps generalizing l with
  | nil => rfl
  | cons s rest ih =>
    rw [run, ih]
    cases s with
    | call slot i => exact l.machine.sectionFull_fire slot i
    | change | read => rfl

/-! ### What is read -/

/-- The collector has taken the first of the messages so far, and the others wait in the
ring. -/
def Relays (start : Collector) (l : Link) (messages : List Event) : Prop :=
  ∃ taken waiting, messages = taken ++ waiting ∧ l.collector = taken.foldl Collector.add start ∧
    l.machine.ring.waiting.map (fun bytes => (Event.decode bytes).result) = waiting.map .ok

end Link

/-- The collector takes events that can be decoded one after another. -/
theorem Collector.receiveAll_decoded (verbose : Bool) (c : Collector) {events : List (List UInt8)}
    {messages : List Event}
    (h : events.map (fun bytes => (Event.decode bytes).result) = messages.map .ok) :
    (c.receiveAll verbose events).2 = messages.foldl Collector.add c := by
  induction events generalizing c messages with
  | nil =>
    obtain rfl : messages = [] := by simpa using h.symm
    rfl
  | cons bytes rest ih =>
    obtain ⟨e, later, rfl, he, hlater⟩ := List.map_eq_cons_iff.mp h.symm
    have hdecode : (Event.decode bytes).result = .ok e := he.symm
    have hnow : (c.receive verbose bytes).2 = c.add e := by rw [receive, hdecode]
    rw [receiveAll, List.foldl_cons, ← hnow]
    exact ih _ hlater.symm

theorem Collector.counts_foldl_add (c : Collector) {messages : List Event}
    (h : ∀ e ∈ messages, e.sighting.isSome) :
    (messages.foldl Collector.add c).totalEvents = c.totalEvents + messages.length ∧
      (messages.foldl Collector.add c).untrackedEvents = c.untrackedEvents ∧
      (messages.foldl Collector.add c).invalidEvents = c.invalidEvents := by
  induction messages generalizing c with
  | nil => exact ⟨rfl, rfl, rfl⟩
  | cons e rest ih =>
    obtain ⟨hnow, hlater⟩ := List.forall_mem_cons.mp h
    obtain ⟨s, hs⟩ := Option.isSome_iff_exists.mp hnow
    obtain ⟨htotal, huntracked, hinvalid⟩ := ih (c.add e) hlater
    rw [List.foldl_cons, htotal, huntracked, hinvalid, add, hs, List.length_cons]
    exact ⟨by simp only [file]; omega, rfl, rfl⟩

/-- A collector that has taken these events and no others. -/
theorem Collector.counts_of_messages {probes : List Probe.Resolved} {c : Collector}
    {messages : List Event} (hc : c = messages.foldl Collector.add (.start probes))
    (h : ∀ e ∈ messages, e.sighting.isSome) :
    c.totalEvents = messages.length ∧ c.untrackedEvents = 0 ∧ c.invalidEvents = 0 := by
  obtain ⟨htotal, huntracked, hinvalid⟩ := (Collector.start probes).counts_foldl_add h
  rw [hc, htotal, huntracked, hinvalid]
  exact ⟨Nat.zero_add _, rfl, rfl⟩

namespace Link

theorem Relays.step {start : Collector} {l : Link} {messages : List Event}
    (h : Relays start l messages) (s : Step) :
    Relays start (l.step s) (messages ++ l.messagesBy s) := by
  obtain ⟨taken, waiting, rfl, hcollector, hwaiting⟩ := h
  cases s with
  | call slot i =>
    refine ⟨taken, waiting ++ l.messagesBy (.call slot i), List.append_assoc .., hcollector, ?_⟩
    unfold Link.step messagesBy
    obtain ⟨hnone, hring⟩ | ⟨e, bytes, hsome, hdecode, hring⟩ := l.machine.fire_cases slot i
    · simp [hnone, hring, hwaiting]
    · simp [hsome, hring, hdecode, hwaiting, Ring.push]
  | change other => exact ⟨taken, waiting, List.append_nil _, hcollector, hwaiting⟩
  | read verbose =>
    refine ⟨taken ++ waiting, [], by simp [messagesBy], ?_, rfl⟩
    rw [List.foldl_append, ← hcollector]
    exact l.collector.receiveAll_decoded verbose hwaiting

theorem Relays.run {start : Collector} {l : Link} {messages : List Event}
    (h : Relays start l messages) (steps : List Step) :
    Relays start (l.run steps) (messages ++ l.messages steps) := by
  induction steps generalizing l messages with
  | nil => rwa [Link.run, Link.messages, List.append_nil]
  | cons s rest ih =>
    rw [Link.run, Link.messages, ← List.append_assoc]
    exact ih (h.step s)

/-- Once the ring is read, the collector has taken all messages so far. -/
theorem Relays.read {start : Collector} {l : Link} {messages : List Event}
    (h : Relays start l messages) (verbose : Bool) :
    (l.step (.read verbose)).collector = messages.foldl Collector.add start := by
  obtain ⟨taken, waiting, hall, hcollector, hwaiting⟩ := h.step (.read verbose)
  obtain rfl : waiting = [] := List.map_eq_nil_iff.mp hwaiting.symm
  have htaken : messages = taken := by simpa [messagesBy] using hall
  rw [hcollector, htaken]

/-- **Every event that is sent arrives as it was meant**: each of those that are submitted
decodes into the event of its call, and no section ever fails to fit. From an empty ring on, the
collector has taken the first of them in order, and the others wait in the ring: none is lost,
invalid or untracked. Once the ring is read, as a session does it, none is waiting, and the
collector has taken all of them. -/
theorem calls_delivered (m : Machine) (probes : List Probe.Resolved) (steps : List Step) :
    let start : Link := ⟨m, .start probes⟩
    let done := start.run steps
    (start.submitted steps).map (fun bytes => (Event.decode bytes).result) =
        (start.messages steps).map .ok ∧
      done.machine.counters.get? Counter.sectionFull.index =
        m.counters.get? Counter.sectionFull.index ∧
      (m.ring.waiting = [] →
        (done.collector =
            ((start.messages steps).take done.collector.totalEvents).foldl Collector.add
              (.start probes) ∧
          done.collector.totalEvents + done.machine.ring.waiting.length =
            (start.submitted steps).length ∧
          done.collector.invalidEvents = 0 ∧ done.collector.untrackedEvents = 0) ∧
        ∀ verbose,
          let read := start.run (steps ++ [.read verbose])
          (read.machine.ring.waiting = [] ∧
            read.collector = (start.messages steps).foldl Collector.add (.start probes) ∧
            read.collector.totalEvents = (start.submitted steps).length ∧
            read.collector.invalidEvents = 0 ∧ read.collector.untrackedEvents = 0) ∧
          ∀ (watch : Session.Watch) (w : Session.World), watch.collector = done.collector →
            w.machine = done.machine →
            ∃ log, (Session.readEvents verbose watch).run w =
              (.ok { watch with collector := read.collector },
                { w with machine := read.machine, log := log })) := by
  intro start done
  have hsubmitted := start.decode_submitted steps
  refine ⟨hsubmitted, start.sectionFull_run steps, fun hempty => ?_⟩
  have hlength : (start.submitted steps).length = (start.messages steps).length := by
    simpa using congrArg List.length hsubmitted
  have hstart : Relays (.start probes) start [] := ⟨[], [], rfl, rfl, by rw [hempty]; rfl⟩
  have hrelays : Relays (.start probes) done (start.messages steps) := hstart.run steps
  constructor
  · obtain ⟨taken, waiting, hall, hcollector, hwaiting⟩ := hrelays
    have hsighted (e : Event) (he : e ∈ taken) : e.sighting.isSome :=
      sighting_of_mem_messages (hall ▸ List.mem_append_left waiting he)
    obtain ⟨htotal, huntracked, hinvalid⟩ := Collector.counts_of_messages hcollector hsighted
    refine ⟨?_, ?_, hinvalid, huntracked⟩
    · rw [htotal, hall, List.take_left' rfl]
      exact hcollector
    · have hleft := congrArg List.length hwaiting
      rw [List.length_map, List.length_map] at hleft
      rw [htotal, hlength, hall, List.length_append, hleft]
  · intro verbose read
    have hread : read = done.step (.read verbose) := start.run_append steps [.read verbose]
    have hcollector : read.collector = (start.messages steps).foldl Collector.add (.start probes) :=
      hread ▸ hrelays.read verbose
    obtain ⟨htotal, huntracked, hinvalid⟩ :=
      Collector.counts_of_messages hcollector fun e he => sighting_of_mem_messages he
    refine ⟨⟨by rw [hread]; rfl, hcollector, htotal.trans hlength.symm, hinvalid, huntracked⟩, ?_⟩
    intro watch w hwatch hw
    have hlink : (⟨w.machine, watch.collector⟩ : Link) = done := by rw [hwatch, hw]
    rw [hread, ← hlink]
    exact step_read_eq_readEvents verbose watch w

/-- A machine with one probed function, where one buffer has a head and there may be a
record. -/
def rig (head : Address) (tracked : Store) : Machine :=
  { (((Machine.blank 4).putProbe? 0x10 ⟨0, 1⟩).getD (.blank 4)).expose [(0x10C0, head)] with
    tracked := tracked }

/-- A place in the ring with nothing of use in it. -/
def litter : RawEvent where
  size := 1000
  data := List.replicate RawEvent.room 0xFF
  length_data := List.length_replicate

/-- A drop, which is read; then an observation of a buffer that is known by its address, without
a drop reason; then a call that has no buffer. -/
def traffic : List Step :=
  [.call litter ⟨0x10, 100, [0x1000, 2]⟩, .read false,
   .change (rig 0x33 (Store.insertIfAbsent (.empty 8) 0x1000 ⟨7, 7, 0x44⟩).2),
   .call litter ⟨0x10, 120, [0x1000]⟩, .call litter ⟨0x10, 130, []⟩]

/-- One event is read and one waits, and both say what they should. Another read leaves none
waiting. -/
theorem traffic_delivered :
    (rig 0x22 (.empty 8)).ring.waiting = [] ∧
      (submitted ⟨rig 0x22 (.empty 8), .start []⟩ traffic).map
          (fun bytes => (Event.decode bytes).result) =
        [.ok ⟨100, some 0x10, some ⟨⟨0x22, 100⟩, 0x1000, 2⟩⟩,
         .ok ⟨120, some 0x10, some ⟨⟨0x44, 7⟩, 0x1000, 0⟩⟩] ∧
      (run ⟨rig 0x22 (.empty 8), .start []⟩ traffic).collector.totalEvents +
        (run ⟨rig 0x22 (.empty 8), .start []⟩ traffic).machine.ring.waiting.length = 2 ∧
      (run ⟨rig 0x22 (.empty 8), .start []⟩ (traffic ++ [.read true])).machine.ring.waiting = [] ∧
      (run ⟨rig 0x22 (.empty 8), .start []⟩ (traffic ++ [.read true])).collector.totalEvents =
        2 := by
  obtain ⟨hsubmitted, -, hread⟩ := calls_delivered (rig 0x22 (.empty 8)) [] traffic
  have hmessages : messages ⟨rig 0x22 (.empty 8), .start []⟩ traffic =
      [⟨100, some 0x10, some ⟨⟨0x22, 100⟩, 0x1000, 2⟩⟩,
       ⟨120, some 0x10, some ⟨⟨0x44, 7⟩, 0x1000, 0⟩⟩] := by
    decide +kernel
  rw [hmessages] at hsubmitted
  have hlength : (submitted ⟨rig 0x22 (.empty 8), .start []⟩ traffic).length = 2 := by
    simpa using congrArg List.length hsubmitted
  obtain ⟨⟨-, hsum, -⟩, hlater⟩ := hread rfl
  obtain ⟨⟨hnone, -, htotal, -⟩, -⟩ := hlater true
  exact ⟨rfl, hsubmitted, hsum.trans hlength, hnone, htotal.trans hlength⟩

end Link

end Lifeline
