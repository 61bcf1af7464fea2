import Lifeline.Proofs.Reaper.Custody
import Mathlib.Algebra.Ring.Nat

/-! What the running count of a reaper is worth.

The reaper learns how much a sweep removed only once the sweep is through (`tick`). What a sweep
removes before it fails is gone from the store, and no later sweep can make up for it. A visit of
the reaper is a tick wherever the records are kept, whatever fails and whatever others have done to
the records since the visit before.

`whole_sweeps_counted` says what the count has, how far it falls short of all that was removed, and
which visits it takes for that; `heldUp_uncounted` is the smallest of them. -/
namespace Lifeline

/-- The keys of a store that are gone from what is left of it. -/
def Store.gone (s left : Store) : List Address :=
  s.entries.keys.filter fun key => (left.lookup key).isNone

theorem Store.mem_keys {s : Store} {key : Address} :
    key ∈ s.entries.keys ↔ s.lookup key ≠ none := by
  rw [Std.ExtTreeMap.mem_keys, ← Std.ExtTreeMap.isSome_getElem?_iff_mem,
    Option.isSome_iff_ne_none]
  rfl

theorem Store.gone_self (s : Store) : s.gone s = [] := by
  refine List.filter_eq_nil_iff.mpr fun key hkey hnone => ?_
  exact mem_keys.mp hkey (Option.isNone_iff_eq_none.mp hnone)

/-- The keys that are removed are gone, and no others. -/
theorem Store.gone_foldl_delete {keys : List Address} {s : Store} (hnodup : keys.Nodup)
    (hheld : ∀ key ∈ keys, s.lookup key ≠ none) :
    (s.gone (keys.foldl Store.delete s)).Perm keys := by
  refine (List.perm_ext_iff_of_nodup ((BoundedMap.nodup_keys s).filter _) hnodup).mpr fun key => ?_
  rw [List.mem_filter, mem_keys, Reaper.lookup_foldl_delete]
  constructor
  · rintro ⟨hkey, hgone⟩
    by_contra hkept
    rw [if_neg hkept, Option.isNone_iff_eq_none] at hgone
    exact hkey hgone
  · intro hkey
    rw [if_pos hkey]
    exact ⟨hheld key hkey, rfl⟩

namespace Reaper

variable {σ ε : Type} {store : σ → Store}

/-- A tick adds what its sweep tells, if that gets through, and leaves the place as its sweep
does. -/
theorem tick_sweep (custody : Custody σ ε) (now maxAge : Nanos) (reaped : Nat) (s : σ) :
    ((tick custody now maxAge reaped s).1 =
      match (sweep custody now maxAge s).1 with
      | .ok n => reaped + n
      | .error _ => reaped) ∧
      (tick custody now maxAge reaped s).2.2 = (sweep custody now maxAge s).2 := by
  unfold tick
  generalize sweep custody now maxAge s = swept
  obtain ⟨result, left⟩ := swept
  match result with
  | .ok 0 => exact ⟨rfl, rfl⟩
  | .ok (_ + 1) => exact ⟨rfl, rfl⟩
  | .error _ => exact ⟨rfl, rfl⟩

theorem stale_prefix {passed listed : List (Address × Record)} (h : passed <+: listed)
    (now maxAge : Nanos) : stale now maxAge passed <+: stale now maxAge listed :=
  (h.filter _).map _

/-- Removing what is stale among some listed entries takes as many keys as there are. -/
theorem length_gone {listed passed : List (Address × Record)} {s : Store}
    (hl : listed.Perm s.toList) (hpassed : passed <+: listed) (now maxAge : Nanos) :
    (s.gone ((stale now maxAge passed).foldl Store.delete s)).length =
      (stale now maxAge passed).length := by
  have hdue := stale_prefix hpassed now maxAge
  have hheld : ∀ key ∈ stale now maxAge passed, s.lookup key ≠ none := by
    intro key hkey
    obtain ⟨r, hr, -⟩ := mem_stale.mp (hdue.subset hkey)
    exact Option.ne_none_iff_exists'.mpr ⟨r, (mem_listed hl).mp hr⟩
  exact (Store.gone_foldl_delete (hdue.sublist.nodup (nodup_stale hl now maxAge)) hheld).length_eq

/-- Of the keys to remove the first can go, and a later one cannot. -/
def BreaksOff (troubles : Troubles ε) (due : List Address) : Prop :=
  ∃ first rest, due = first :: rest ∧ troubles.removal first = none ∧
    ∃ key ∈ rest, troubles.removal key ≠ none

/-- A sweep that gets through tells how much it was after. One that fails tells nothing, and has
got past something stale just if it breaks off. -/
theorem Course.result_cases {troubles : Troubles ε} {now maxAge : Nanos}
    {listed passed : List (Address × Record)} {result : Except ε Nat}
    (h : Course troubles now maxAge listed passed result) :
    (result = .ok (stale now maxAge passed).length ∧
        ¬BreaksOff troubles (stale now maxAge listed)) ∨
      ∃ e, result = .error e ∧
        (BreaksOff troubles (stale now maxAge listed) ↔ (stale now maxAge passed).length ≠ 0) := by
  cases h with
  | through clear =>
    refine .inl ⟨rfl, ?_⟩
    rintro ⟨first, rest, hdue, -, key, hkey, hrefused⟩
    exact hrefused (clear key (hdue ▸ List.mem_cons_of_mem first hkey))
  | @blocked passed later key r e clear due refused =>
    refine .inr ⟨e, rfl, ?_⟩
    rw [stale_append, stale_cons due]
    constructor
    · rintro ⟨first, rest, hdue, hfree, -⟩ hnone
      rw [List.eq_nil_of_length_eq_zero hnone] at hdue
      obtain ⟨rfl, -⟩ := List.cons.inj hdue
      exact Option.some_ne_none e (refused.symm.trans hfree)
    · intro hsome
      obtain ⟨first, rest, hdue⟩ := List.exists_cons_of_length_pos (Nat.pos_of_ne_zero hsome)
      refine ⟨first, rest ++ key :: stale now maxAge later, by rw [hdue]; rfl,
        clear first (hdue ▸ List.mem_cons_self), key, by simp, ?_⟩
      rw [refused]
      exact Option.some_ne_none e

/-- A visit of the reaper: what others do before it to the place where the records are kept, and
what it finds there. -/
structure Visit (store : σ → Store) (ε : Type) where
  meanwhile : σ → σ
  now : Nanos
  custody : Custody σ ε
  troubles : Troubles ε
  keeps : custody.Keeps store troubles

namespace Visit

variable (v : Visit store ε) (maxAge : Nanos) (s : σ)

/-- The sweep of the visit. -/
def swept : Except ε Nat × σ :=
  sweep v.custody v.now maxAge (v.meanwhile s)

/-- How many entries are gone after it. -/
def removed : Nat :=
  ((store (v.meanwhile s)).gone (store (v.swept maxAge s).2)).length

/-- Its sweep breaks off. -/
def BreaksOff : Prop :=
  ∃ listed, (v.custody.entries (v.meanwhile s)).1 = .ok listed ∧
    Reaper.BreaksOff v.troubles (stale v.now maxAge listed)

/-- A sweep that gets through tells what it removed. One that fails tells nothing, and has removed
something just if it breaks off. -/
theorem swept_cases :
    ((v.swept maxAge s).1 = .ok (v.removed maxAge s) ∧ ¬v.BreaksOff maxAge s) ∨
      ∃ e, (v.swept maxAge s).1 = .error e ∧ (v.BreaksOff maxAge s ↔ v.removed maxAge s ≠ 0) := by
  obtain ⟨meanwhile, now, custody, troubles, keeps⟩ := v
  simp only [swept, removed, BreaksOff]
  cases hsnapshot : troubles.snapshot with
  | some e =>
    obtain ⟨s', hentries, -⟩ := keeps.unlisted e hsnapshot (meanwhile s)
    obtain ⟨hresult, hstore⟩ := keeps.sweep_of_unlisted hsnapshot now maxAge (meanwhile s)
    refine .inr ⟨e, hresult, ?_⟩
    rw [hstore, Store.gone_self, hentries]
    simp
  | none =>
    obtain ⟨listed, hlisted, hl, hsweep⟩ := keeps.sweep_of_listed hsnapshot (meanwhile s)
    obtain ⟨passed, hcourse, hstore⟩ := hsweep now maxAge
    rw [hstore, length_gone hl hcourse.passed_prefix, hlisted]
    simpa using hcourse.result_cases

end Visit

/-! ### Visits one after another -/

/-- The running count and the place after some visits. -/
def visitAll (maxAge : Nanos) : List (Visit store ε) → (reaped : Nat) → σ → Nat × σ
  | [], reaped, s => (reaped, s)
  | v :: rest, reaped, s =>
    let (reaped, _, s) := tick v.custody v.now maxAge reaped (v.meanwhile s)
    visitAll maxAge rest reaped s

/-- Each visit with the place as the one before has left it. -/
def calls (maxAge : Nanos) : List (Visit store ε) → σ → List (Visit store ε × σ)
  | [], _ => []
  | v :: rest, s => (v, s) :: calls maxAge rest (v.swept maxAge s).2

/-- The sweep of the call gets through. -/
def isThrough (maxAge : Nanos) (call : Visit store ε × σ) : Bool :=
  (call.1.swept maxAge call.2).1.isOk

/-- How many entries were removed at some of them. -/
def removedAt (maxAge : Nanos) (calls : List (Visit store ε × σ)) : Nat :=
  (calls.map fun call => call.1.removed maxAge call.2).sum

theorem removedAt_cons (maxAge : Nanos) (call : Visit store ε × σ)
    (calls : List (Visit store ε × σ)) :
    removedAt maxAge (call :: calls) = call.1.removed maxAge call.2 + removedAt maxAge calls := by
  rw [removedAt, List.map_cons, List.sum_cons, removedAt]

theorem visitAll_count (maxAge : Nanos) (visits : List (Visit store ε)) (reaped : Nat) (s : σ) :
    (visitAll maxAge visits reaped s).1 =
      reaped + removedAt maxAge ((calls maxAge visits s).filter (isThrough maxAge)) := by
  induction visits generalizing reaped s with
  | nil => rfl
  | cons v rest ih =>
    obtain ⟨hcount, hplace⟩ := tick_sweep v.custody v.now maxAge reaped (v.meanwhile s)
    have hnext : (visitAll maxAge (v :: rest) reaped s).1 =
        (visitAll maxAge rest (tick v.custody v.now maxAge reaped (v.meanwhile s)).1
          (v.swept maxAge s).2).1 := by
      rw [visitAll, Visit.swept, ← hplace]
    rw [hnext, ih, hcount, calls]
    change (match (v.swept maxAge s).1 with | .ok n => reaped + n | .error _ => reaped) + _ = _
    obtain ⟨hok, -⟩ | ⟨e, herror, -⟩ := v.swept_cases maxAge s
    · have hthrough : isThrough maxAge (v, s) = true := by
        rw [isThrough, hok]
        rfl
      rw [List.filter_cons_of_pos hthrough, removedAt_cons, hok]
      exact Nat.add_assoc ..
    · have hfailed : ¬isThrough maxAge (v, s) = true := by
        rw [isThrough, herror]
        exact Bool.false_ne_true
      rw [List.filter_cons_of_neg hfailed, herror]

/-- Sweeps that fail add to what was removed only if they break off. -/
theorem removedAt_filter (maxAge : Nanos) (calls : List (Visit store ε × σ)) :
    removedAt maxAge (calls.filter (isThrough maxAge)) ≤ removedAt maxAge calls ∧
      (removedAt maxAge (calls.filter (isThrough maxAge)) = removedAt maxAge calls ↔
        ∀ call ∈ calls, ¬call.1.BreaksOff maxAge call.2) := by
  induction calls with
  | nil => simp
  | cons call rest ih =>
    obtain ⟨hle, heq⟩ := ih
    rw [removedAt_cons, List.forall_mem_cons, ← heq]
    obtain ⟨hok, hwhole⟩ | ⟨e, herror, hbreaks⟩ := call.1.swept_cases maxAge call.2
    · rw [List.filter_cons_of_pos (by rw [isThrough, hok]; rfl), removedAt_cons]
      exact ⟨Nat.add_le_add_left hle _, by simp [hwhole]⟩
    · rw [List.filter_cons_of_neg (by rw [isThrough, herror]; exact Bool.false_ne_true), hbreaks]
      omega

/-- **The running count has what whole sweeps removed.** After any visits it is the number of
entries removed by those whose sweep got through, whatever failed at the others. So it is never
more than all that were removed, and it is as much unless some sweep broke off: it removed a stale
entry, and then came to one that it could not remove. -/
theorem whole_sweeps_counted (maxAge : Nanos) (visits : List (Visit store ε)) (s : σ) :
    let calls := calls maxAge visits s
    let reaped := (visitAll maxAge visits 0 s).1
    reaped = removedAt maxAge (calls.filter (isThrough maxAge)) ∧
      reaped ≤ removedAt maxAge calls ∧
      (reaped = removedAt maxAge calls ↔ ∀ call ∈ calls, ¬call.1.BreaksOff maxAge call.2) := by
  intro calls reaped
  have hreaped : reaped = removedAt maxAge (calls.filter (isThrough maxAge)) := by
    rw [← Nat.zero_add (removedAt ..)]
    exact visitAll_count maxAge visits 0 s
  obtain ⟨hle, heq⟩ := removedAt_filter maxAge calls
  rw [hreaped]
  exact ⟨rfl, hle, heq⟩

/-- Two entries last seen at 0. -/
def twoOld : Store :=
  [0x1, 0x2].foldl (fun s key => (s.insertIfAbsent key (.start key 0)).2) (.empty 2)

/-- A visit at this time to the plain store, with these failures. -/
def Failing.visit (failing : Failing) (now : Nanos) : Visit id SweepError where
  meanwhile := id
  now := now
  custody := ofStore failing
  troubles := failing.troubles
  keeps := keeps_ofStore failing

/-- A visit that cannot remove the second of two entries, and one without failures after it: two
entries are removed in all and one is counted. -/
theorem heldUp_uncounted :
    let visits := [Failing.visit ⟨false, (· == 0x2)⟩ 100, Failing.visit .never 110]
    (visitAll 40 (visits.take 1) 0 twoOld).1 ≠ removedAt 40 (calls 40 (visits.take 1) twoOld) ∧
      (visitAll 40 visits 0 twoOld).1 = 1 ∧ removedAt 40 (calls 40 visits twoOld) = 2 := by
  decide +kernel

end Reaper

end Lifeline
