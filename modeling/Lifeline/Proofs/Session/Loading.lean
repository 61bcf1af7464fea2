import Lifeline.Proofs.Kernel.Configuration
import Lifeline.Proofs.Probe.Acceptance
import Lifeline.Session.Loader

/-! Filling the maps for an accepted probe set.

Where no fault is laid, a session fills the maps as the machine is told of the probes
(`configureProbes_run`). `accepted_probes_usable` says that there is always room for the probes of
an accepted set, and what the calls of their functions come to afterwards. -/
namespace Lifeline.Session

open Kernel Probe

/-! ### Parts of a session that succeed -/

namespace Task

variable {α β : Type} {x : Task α} {w w' : World} {a : α}

theorem run_bind_of_ok (h : x.run w = (.ok a, w')) (f : α → Task β) :
    (x >>= f).run w = (f a).run w' := by
  have h : StateT.run (ExceptT.run x) w = pure (.ok a, w') := h
  simp only [Task.run, ExceptT.run_bind, StateT.run_bind, h]
  rfl

theorem run_within_of_ok (message : String) (h : x.run w = (.ok a, w')) :
    (within message x).run w = (.ok a, w') := by
  have h : StateT.run x w = pure (.ok a, w') := h
  show StateT.run (ExceptT.run (ExceptT.tryCatch x _)) w = _
  simp only [ExceptT.tryCatch, ExceptT.run_mk, StateT.run_bind, h]
  rfl

theorem run_fault? (hfaults : w.faults = []) (call : Call) (name : String) :
    (fault? call name).run w = (.ok none, w) := by
  cases w
  cases hfaults
  rfl

end Task

variable {w : World}

theorem openHash_run (hfaults : w.faults = []) (name : String) :
    (openHash name).run w = (.ok (), w) := by
  have hfind : (findMap name).run w = (.ok (), w) :=
    Task.run_bind_of_ok (Task.run_fault? hfaults _ _) _
  rw [openHash, Task.run_bind_of_ok hfind, takeAs,
    Task.run_bind_of_ok (Task.run_fault? hfaults _ _)]
  rfl

theorem update_run (hfaults : w.faults = []) (name : String) {put : Machine → Option Machine}
    {m : Machine} (hput : put w.machine = some m) :
    (update name put).run w = (.ok (), { w with machine := m }) := by
  have hget : (get : Task World).run w = (.ok w, w) := rfl
  rw [update, Task.run_bind_of_ok (Task.run_fault? hfaults _ _)]
  simp only
  rw [Task.run_bind_of_ok hget, hput]
  rfl

/-- A loop whose rounds all succeed without faults. -/
theorem forIn_run {α : Type} {body : α → PUnit → Task (ForInStep PUnit)}
    {put : Machine → α → Option Machine}
    (hbody : ∀ (w : World) (m : Machine) (x : α), w.faults = [] → put w.machine x = some m →
      (body x ⟨⟩).run w = (.ok (.yield ⟨⟩), { w with machine := m }))
    {xs : List α} {m : Machine} (hfaults : w.faults = [])
    (h : xs.foldlM put w.machine = some m) :
    (forIn xs PUnit.unit body).run w = (.ok ⟨⟩, { w with machine := m }) := by
  induction xs generalizing w with
  | nil =>
    cases h
    rfl
  | cons x rest ih =>
    rw [List.foldlM_cons] at h
    obtain ⟨next, hnext, hrest⟩ := Option.bind_eq_some_iff.mp h
    rw [List.forIn_cons, Task.run_bind_of_ok (hbody w next x hfaults hnext)]
    exact ih (w := { w with machine := next }) hfaults hrest

/-- A session tells its machine of the probes. -/
theorem configureProbes_run {probes : List Resolved} {m : Machine} (hfaults : w.faults = [])
    (h : w.machine.configure? probes = some m) :
    let count := (special probes).length
    (configureProbes probes).run w = (.ok (),
      { w with
        machine := m
        log := w.log.push
          (.info s!"Configured {probes.length} probes ({count} with tracking behavior)") }) := by
  obtain ⟨told, hpositions, hbehaviors⟩ := Option.bind_eq_some_iff.mp h
  unfold configureProbes
  rw [Task.run_bind_of_ok (openHash_run hfaults _),
    Task.run_bind_of_ok (forIn_run ?positions hfaults hpositions),
    Task.run_bind_of_ok (openHash_run (w := { w with machine := told }) hfaults _),
    Task.run_bind_of_ok (forIn_run (w := { w with machine := told }) ?behaviors hfaults hbehaviors)]
  · rfl
  case positions =>
    intro w m p hfaults hput
    rw [Task.run_bind_of_ok (Task.run_within_of_ok _ (update_run hfaults _ hput))]
    rfl
  case behaviors =>
    -- a probe without a behavior is passed over on both sides
    intro w m p hfaults hput
    cases hbehavior : p.behavior with
    | none =>
      rw [hbehavior] at hput
      cases hput
      rfl
    | some behavior =>
      rw [hbehavior] at hput
      simp only
      rw [Task.run_bind_of_ok (Task.run_within_of_ok _ (update_run hfaults _ hput))]
      rfl

/-! ### Accepted sets -/

/-- **What is accepted can be used.** In empty maps there is room for all that the running kernel
has of a set that was built, and a session that meets no fault puts it there. From then on, the last
probe at an address rules the calls of its function, whatever else becomes of the machine: none is
without configuration, one is without a buffer exactly if the register of the buffer is null, and
the drop reason of an event, where the probe asks for one, comes from another register. -/
theorem accepted_probes_usable {file : Option (String × Except Files.FileError (List UInt8))}
    {arguments : List String} {set : ProbeSet} (hbuild : ProbeSet.build file arguments = .ok set)
    (symbols : Symbols) {m : Machine} (hpositions : m.probes = .empty maxProbes)
    (hbehaviors : m.behaviors = .empty maxProbes) :
    let probes := set.resolve symbols
    ∃ told, m.configure? probes = some told ∧
      (∀ w : World, w.machine = m → w.faults = [] →
        ∃ log, (configureProbes probes).run w = (.ok (), { w with machine := told, log := log })) ∧
      ∀ p ∈ probes, ∃ q spec, IsLast probes q ∧ q.address = p.address ∧
        spec ∈ set.probes ∧ ProbeSet.locate? symbols spec = some q ∧
        ∃ skb < argumentRegisters, spec.skBuff.toInt = skb ∧
          (∀ (now : Machine) (slot : RawEvent) (i : Invocation), now.probes = told.probes →
            i.function = p.address →
            (now.fire slot i).1 ≠ .noConfig ∧
              ((now.fire slot i).1 = .noSkb ↔ i.register skb = 0)) ∧
          ∀ position, spec.dropReason = some position →
            ∃ reason < argumentRegisters, position.toInt = reason ∧ reason ≠ skb ∧
              ∀ (now : Machine) (slot : RawEvent) (i : Invocation) (bytes : List UInt8),
                now.probes = told.probes → i.function = p.address →
                (now.fire slot i).2.ring = now.ring.push bytes →
                ∃ e s, (Event.decode bytes).result = .ok e ∧ e.sighting = some s ∧
                  s.dropReason = (i.register reason).toUInt32 := by
  intro probes
  obtain ⟨-, hfew, husable⟩ := set.check_eq_ok_iff.mp (ProbeSet.check_of_build hbuild)
  obtain ⟨positions, behaviors, htold, hget, -⟩ := Machine.exists_configure? hpositions hbehaviors
    (Nat.le_trans (set.length_resolve_le symbols) hfew)
  refine ⟨_, htold, fun w hw hfaults => ⟨_, configureProbes_run hfaults (hw ▸ htold)⟩, ?_⟩
  intro p hp
  obtain ⟨q, hq, haddress, hlast⟩ := exists_isLast hp
  obtain ⟨spec, hspec, hlocate⟩ := List.mem_filterMap.mp hlast.mem
  have hoffsets : q.offsets = spec.offsets :=
    congrArg Resolved.offsets (ProbeSet.locate?_eq_some hlocate).2
  -- the map of positions leads every call of the function to this probe
  have hconfigured (now : Machine) (i : Invocation) (hnow : now.probes = positions)
      (hi : i.function = p.address) : now.probes.get? i.function = some spec.offsets := by
    rw [hnow, hi, hget, hq, Option.map_some, hoffsets]
  obtain ⟨skb, hskb⟩ := (husable spec hspec).skBuff
  have hbuffer : spec.offsets.skBuff? = some skb := hskb
  refine ⟨q, spec, hlast, haddress, hspec, hlocate, skb, register?_lt hskb,
    toInt_of_register? hskb, fun now slot i hnow hi => ?_, fun position hposition => ?_⟩
  · have hexit := Machine.exit_fire_of_configured slot (hconfigured now i hnow hi)
    rwa [Invocation.skb?_eq_none_iff hbuffer] at hexit
  · obtain ⟨⟨reason, hreason⟩, -⟩ := (husable spec hspec).dropReason position hposition
    have hasked : spec.offsets.dropReason? = some reason := by
      rw [Spec.dropReason?_offsets, hposition]
      exact hreason
    refine ⟨reason, register?_lt hreason, toInt_of_register? hreason,
      (husable spec hspec).registers_ne hbuffer hasked, fun now slot i bytes hnow hi hsent => ?_⟩
    have hdrop := Machine.dropReason_of_sent (hconfigured now i hnow hi) hsent
    rwa [Invocation.dropReason?, hasked] at hdrop

/-- A kernel that has the end of a buffer's life under two names. -/
def twoNames : Symbols :=
  .ofEntries [⟨"consume_skb", 0x10⟩, ⟨"kfree_skb_reason", 0x10⟩, ⟨"ip_rcv", 0x20⟩]

/-- The built-in probes and one of the command line: the later of the two at one address asks for
a drop reason. -/
theorem twoNames_usable :
    let set := ProbeSet.builtin.upsert (.generic "ip_rcv" 2)
    let probes := set.resolve twoNames
    ProbeSet.build none ["ip_rcv:2"] = .ok set ∧
      ∃ told, (Machine.blank 4).configure? probes = some told ∧
        ∀ (slot : RawEvent) (i : Invocation), i.function = 0x10 →
          (told.fire slot i).1 ≠ .noConfig ∧
            ((told.fire slot i).1 = .noSkb ↔ i.register 0 = 0) ∧
            ∀ bytes, (told.fire slot i).2.ring = told.ring.push bytes →
              ∃ e s, (Event.decode bytes).result = .ok e ∧ e.sighting = some s ∧
                s.dropReason = (i.register 1).toUInt32 := by
  intro set probes
  have hbuild : ProbeSet.build none ["ip_rcv:2"] = .ok set := rfl
  have hlast : lastAt? probes 0x10 = some ⟨"kfree_skb_reason", 0x10, ⟨0, 1⟩, none⟩ := by
    decide +kernel
  have hmem := (lastAt?_eq_some_iff.mp hlast).2.mem
  obtain ⟨told, htold, -, husable⟩ :=
    accepted_probes_usable hbuild twoNames (m := .blank 4) rfl rfl
  obtain ⟨q, spec, hq, haddress, -, hlocate, skb, -, hskb, hcalls, hreasons⟩ := husable _ hmem
  obtain rfl : ⟨"kfree_skb_reason", 0x10, ⟨0, 1⟩, none⟩ = q :=
    Option.some.inj (hlast.symm.trans (lastAt?_eq_some_iff.mpr ⟨haddress, hq⟩))
  have hoffsets : (⟨0, 1⟩ : Offsets) = spec.offsets :=
    congrArg Resolved.offsets (ProbeSet.locate?_eq_some hlocate).2
  have hbuffer : (0 : Int8) = spec.skBuff := congrArg Offsets.skBuff hoffsets
  obtain rfl : 0 = skb := by
    rw [← hbuffer] at hskb
    exact Int.ofNat_inj.mp hskb
  have hasked : spec.dropReason = some 1 := by
    have hreason : (1 : Int8) = spec.dropReason.getD unavailable :=
      congrArg Offsets.dropReason hoffsets
    cases hgiven : spec.dropReason with
    | none =>
      rw [hgiven] at hreason
      exact absurd hreason (by decide)
    | some position => rw [hreason, hgiven, Option.getD_some]
  obtain ⟨reason, -, hposition, -, hdrop⟩ := hreasons 1 hasked
  obtain rfl : 1 = reason := Int.ofNat_inj.mp hposition
  refine ⟨hbuild, told, htold, fun slot i hi => ?_⟩
  obtain ⟨hconfigured, hnull⟩ := hcalls told slot i rfl hi
  exact ⟨hconfigured, hnull, fun bytes hsent => hdrop told slot i bytes rfl hi hsent⟩

end Lifeline.Session
