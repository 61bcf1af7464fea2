import Lifeline.Probe.Build
import Lifeline.Proofs.Basics
import Mathlib.Data.List.Basic

/-! What an accepted probe set promises.

A probe is accepted if its arguments lie in registers that can be read, the drop reason in another
one than the buffer (`Spec.check_eq_ok_iff`). A set is accepted if it has probes, all of them are,
and a map of the kernel can take them (`ProbeSet.check_eq_ok_iff`). What the running kernel has of
such a set is no larger, and asks for the same registers. -/
namespace Lifeline

theorem register?_injective {position other : Int8} {i : Nat} (h : register? position = some i)
    (hother : register? other = some i) : position = other := by
  unfold register? at h hother
  split at h <;> split at hother
  · cases h
    have hnat := Option.some.inj hother
    exact Int8.toInt_inj.mp (by omega)
  all_goals contradiction

theorem toInt_of_register? {position : Int8} {i : Nat} (h : register? position = some i) :
    position.toInt = i := by
  unfold register? at h
  split at h
  · cases h
    omega
  · contradiction

namespace Probe

/-! ### One probe -/

namespace Spec

/-- A probe that can be used. -/
structure Usable (p : Spec) : Prop where
  named : p.symbol ≠ ""
  skBuff : ∃ skb, register? p.skBuff = some skb
  dropReason : ∀ position, p.dropReason = some position →
    (∃ reason, register? position = some reason) ∧ position ≠ p.skBuff

theorem check_eq_ok_iff (p : Spec) : p.check = .ok () ↔ p.Usable := by
  unfold check
  constructor
  · intro h
    split at h
    · cases h
    rename_i hnamed
    split at h
    · cases h
    rename_i hskb
    refine ⟨hnamed, Option.ne_none_iff_exists'.mp hskb, fun position hposition => ?_⟩
    rw [hposition] at h
    simp only at h
    split at h
    · cases h
    rename_i hreason
    obtain ⟨hreadable, hdistinct⟩ := not_or.mp hreason
    exact ⟨Option.ne_none_iff_exists'.mp hreadable, hdistinct⟩
  · rintro ⟨hnamed, ⟨skb, hskb⟩, hreason⟩
    rw [if_neg hnamed, if_neg (by simp [hskb])]
    cases hposition : p.dropReason with
    | none => rfl
    | some position =>
      obtain ⟨⟨reason, hreadable⟩, hdistinct⟩ := hreason position hposition
      simp only
      rw [if_neg (not_or.mpr ⟨by simp [hreadable], hdistinct⟩)]

/-- A position that is not given is told as one that no register has. -/
theorem dropReason?_offsets (p : Spec) : p.offsets.dropReason? = p.dropReason.bind register? := by
  unfold offsets Offsets.dropReason?
  cases p.dropReason with
  | none => exact register?_unavailable
  | some position => rfl

/-- The drop reason of a usable probe lies in a register of its own. -/
theorem Usable.registers_ne {p : Spec} (h : p.Usable) {skb reason : Nat}
    (hskb : p.offsets.skBuff? = some skb) (hreason : p.offsets.dropReason? = some reason) :
    reason ≠ skb := by
  rintro rfl
  rw [dropReason?_offsets] at hreason
  obtain ⟨position, hposition, hregister⟩ := Option.bind_eq_some_iff.mp hreason
  exact (h.dropReason position hposition).2 (register?_injective hregister hskb)

theorem any_frees_behavior? (p : Spec) : p.behavior?.any Behavior.frees = p.free := by
  unfold behavior?
  split
  · exact Behavior.frees_ofFlags ..
  · rename_i hplain
    simp_all

end Spec

/-! ### A set of probes -/

namespace ProbeSet

theorem check_eq_ok_iff (s : ProbeSet) : s.check = .ok () ↔
    s.probes ≠ [] ∧ s.size ≤ maxProbes ∧ ∀ p ∈ s.probes, p.Usable := by
  unfold check
  generalize hfault : List.findSome? _ s.probes = fault
  have hfirst : fault = none ↔ ∀ p ∈ s.probes, p.Usable := by
    rw [← hfault, List.findSome?_eq_none_iff]
    refine forall₂_congr fun p _ => ?_
    rw [← p.check_eq_ok_iff]
    cases p.check <;> simp
  constructor
  · intro h
    split at h
    · cases h
    rename_i hsome
    split at h
    · cases h
    rename_i hfew
    cases fault with
    | some reason => cases h
    | none => exact ⟨hsome, Nat.le_of_not_lt hfew, hfirst.mp rfl⟩
  · rintro ⟨hsome, hfew, husable⟩
    rw [if_neg hsome, if_neg (Nat.not_lt.mpr hfew), hfirst.mpr husable]

/-- A set that is built has been checked. -/
theorem build_eq_ok_iff {file : Option (String × Except Files.FileError (List UInt8))}
    {arguments : List String} {s : ProbeSet} :
    build file arguments = .ok s ↔ assemble file arguments = .ok s ∧ s.check = .ok () := by
  simp only [build, bind_eq_ok, mapError_eq_ok]
  constructor
  · rintro ⟨set, hset, ⟨⟩, hcheck, ⟨⟩⟩
    exact ⟨hset, hcheck⟩
  · rintro ⟨hset, hcheck⟩
    exact ⟨s, hset, (), hcheck, rfl⟩

theorem check_of_build {file : Option (String × Except Files.FileError (List UInt8))}
    {arguments : List String} {s : ProbeSet} (h : build file arguments = .ok s) :
    s.check = .ok () :=
  (build_eq_ok_iff.mp h).2

/-! ### What the running kernel has of it -/

theorem length_resolve_le (s : ProbeSet) (symbols : Symbols) :
    (s.resolve symbols).length ≤ s.size :=
  List.length_filterMap_le ..

theorem locate?_eq_some {symbols : Symbols} {p : Spec} {q : Resolved}
    (h : locate? symbols p = some q) :
    symbols.addressOf? p.symbol = some q.address ∧
      q = ⟨p.symbol, q.address, p.offsets, p.behavior?⟩ := by
  obtain ⟨address, haddress, rfl⟩ := Option.map_eq_some_iff.mp h
  exact ⟨haddress, rfl⟩

end ProbeSet

end Probe

end Lifeline
