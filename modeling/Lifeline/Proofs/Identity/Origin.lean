import Lifeline.Proofs.Event.Emission
import Lifeline.Proofs.Identity.Cores

/-! Every identity goes back to a firing, in any order of acts.

A core carries a copy of the record that it was shown, and may add it under another key
long after the entry has changed or gone. So the invariant is about copies as well:
identities are known (`known`), every program adds known ones only, as long as it is shown
known ones only (`Program.Honest`), and so every store has known ones only (`Sound`).

`identities_have_origins` takes for known what firings so far may have entered. -/
namespace Lifeline

/-! ### Programs -/

namespace Program

variable {α β : Type} {known : Identity → Prop} {post : α → Prop}

/-- As long as every record that the program is shown is known, every record that it adds is
known, and what it gives in the end is as said. -/
def Honest (known : Identity → Prop) (post : α → Prop) : Program α → Prop
  | done result => post result
  | lookup _ next => ∀ answer, (∀ r ∈ answer, known r.identity) → (next answer).Honest known post
  | insertIfAbsent _ record next =>
    known record.identity ∧ ∀ added, (next added).Honest known post
  | touch _ _ next => ∀ renewed, (next renewed).Honest known post
  | delete _ next => next.Honest known post

theorem Honest.bind {p : Program α} {k : α → Program β} {post' : β → Prop}
    (h : p.Honest known post) (hk : ∀ a, post a → (k a).Honest known post') :
    (p >>= k).Honest known post' := by
  show (p.andThen k).Honest known post'
  induction p with
  | done result => exact hk result h
  | lookup key next ih => exact fun answer hanswer => ih answer (h answer hanswer)
  | insertIfAbsent key record next ih => exact ⟨h.1, fun added => ih added (h.2 added)⟩
  | touch key now next ih => exact fun renewed => ih renewed (h renewed)
  | delete key next ih => exact ih h

theorem honest_pure {a : α} (h : post a) : (pure a : Program α).Honest known post := h

theorem honest_get (known : Identity → Prop) (key : Address) :
    (get key).Honest known fun answer => ∀ r ∈ answer, known r.identity :=
  fun _ hanswer => hanswer

theorem honest_insert {key : Address} {record : Record} (h : known record.identity) :
    (insert key record).Honest known fun _ => True :=
  ⟨h, fun _ => trivial⟩

theorem honest_renew (known : Identity → Prop) (key : Address) (now : Nanos) :
    (renew key now).Honest known fun _ => True :=
  fun _ => trivial

theorem honest_remove (known : Identity → Prop) (key : Address) :
    (remove key).Honest known fun _ => True :=
  trivial

end Program

open Program

variable {known : Identity → Prop}

theorem honest_relocate (head : Address) {record : Record} (h : known record.identity) :
    (relocate head record).Honest known fun _ => True := by
  refine (honest_insert h).bind fun added _ => ?_
  split
  · exact honest_pure trivial
  · exact (honest_get known head).bind fun answer _ => honest_pure trivial

theorem honest_resolve (known : Identity → Prop) (skb head : Address) :
    (resolve skb head).Honest known fun found => ∀ r ∈ found, known r.identity := by
  refine (honest_get known head).bind fun byHead hhead => ?_
  cases byHead with
  | some record => exact honest_pure hhead
  | none =>
    refine (honest_get known skb).bind fun bySkb hskb => ?_
    cases bySkb with
    | none => exact honest_pure hskb
    | some record =>
      refine (honest_relocate head (hskb record rfl)).bind fun moved _ => ?_
      split
      · exact (honest_remove known skb).bind fun _ _ => honest_pure hskb
      · exact honest_pure hskb

/-- An identity is known, or the one that this observation makes. -/
def KnownOrNew (known : Identity → Prop) (o : Observation) (i : Identity) : Prop :=
  known i ∨ i = ⟨o.head, o.timestamp⟩

/-- A freed buffer's first sight makes an identity that is not entered, unless the head is
replaced as well. -/
theorem honest_recognize (behavior : Behavior) (o : Observation)
    (hnew : behavior.frees = false → known ⟨o.head, o.timestamp⟩) :
    (recognize behavior o).Honest known fun r => KnownOrNew known o r.identity := by
  refine (honest_resolve known o.skb o.head).bind fun found hfound => ?_
  cases found with
  | some record => exact honest_pure (.inl (hfound record rfl))
  | none =>
    cases hfrees : behavior.frees with
    | true => exact honest_pure (.inr rfl)
    | false => exact (honest_insert (hnew hfrees)).bind fun _ _ => honest_pure (.inr rfl)

theorem honest_forget (known : Identity → Prop) (behavior : Behavior) (o : Observation) :
    (forget behavior o).Honest known fun _ => True := by
  unfold forget
  split
  · refine (honest_remove known o.head).bind fun _ _ => ?_
    split
    · exact honest_remove known o.skb
    · exact honest_pure trivial
  · exact honest_pure trivial

theorem honest_follow (behavior : Behavior) (o : Observation)
    (hnew : (behavior.frees = true → behavior.invalidatesHead = true) →
      known ⟨o.head, o.timestamp⟩) :
    (follow behavior o).Honest known (KnownOrNew known o) := by
  have hentered (hfrees : behavior.frees = false) : known ⟨o.head, o.timestamp⟩ := by
    apply hnew
    intro h
    rw [hfrees] at h
    exact absurd h Bool.false_ne_true
  refine (honest_recognize behavior o hentered).bind fun record hrecord => ?_
  refine (honest_renew known o.head o.timestamp).bind fun _ _ => ?_
  have hend : Program.Honest known (KnownOrNew known o)
      (forget behavior o >>= fun _ => pure record.identity) :=
    (honest_forget known behavior o).bind fun _ _ => honest_pure hrecord
  split
  · rename_i hinv
    have hdoubled : known ({ record with lastSeen := o.timestamp } : Record).identity := by
      rcases hrecord with hknown | heq
      · exact hknown
      · show known record.identity
        rw [heq]
        exact hnew fun _ => hinv
    exact (honest_insert hdoubled).bind fun _ _ => hend
  · exact hend

/-- Firings whose first sight of a buffer is entered into the store. -/
structure Firing.Enters (f : Firing) : Prop where
  head_ne_zero : f.head ≠ 0
  kept : f.frees = true → f.invalidates = true

/-- What a firing may give in the end. -/
def Firing.Gives (known : Identity → Prop) (f : Firing) (result : Outcome × RawEvent) : Prop :=
  f.head = 0 ∧ result = f.report none ∨
    f.head ≠ 0 ∧ ∃ i, (known i ∨ i = f.origin) ∧ result = f.report (some i)

theorem honest_program (f : Firing) (hnew : f.Enters → known f.origin) :
    f.program.Honest known (f.Gives known) := by
  unfold Firing.program track observe
  split
  · rename_i hhead
    exact .inl ⟨hhead, rfl⟩
  · rename_i hhead
    have hfollow := honest_follow f.behavior f.observation fun hkept => hnew ⟨hhead, hkept⟩
    let resolved (found : Option Identity) : Prop :=
      ∃ i, found = some i ∧ KnownOrNew known f.observation i
    have hidentify : Program.Honest known resolved
        (follow f.behavior f.observation >>= fun i => pure (some i)) :=
      hfollow.bind fun i hi => honest_pure ⟨i, rfl, hi⟩
    refine hidentify.bind fun found hfound => ?_
    obtain ⟨i, rfl, hi⟩ := hfound
    exact .inr ⟨hhead, i, hi, rfl⟩

/-! ### Systems -/

theorem Program.Honest.step {α : Type} {post : α → Prop} {p : Program α} {s : Store}
    (h : p.Honest known post) (hs : s.Knows known) :
    (p.step s).1.Honest known post ∧ (p.step s).2.Knows known := by
  cases p with
  | done result => exact ⟨h, hs⟩
  | lookup key next =>
    exact ⟨h _ fun r hr => hs key r.identity (Store.identityAt_of_lookup hr), hs⟩
  | insertIfAbsent key record next => exact ⟨h.2 _, hs.insertIfAbsent key h.1⟩
  | touch key now next => exact ⟨h _, hs.touch key now⟩
  | delete key next => exact ⟨h, hs.delete key⟩

variable {κ : Type} {sys : System κ}

/-- All identities are known: those stored, those that cores go on with, and those given. -/
structure Sound (known : Identity → Prop) (sys : System κ) : Prop where
  stored : sys.store.Knows known
  working : ∀ core c, sys.cores core = some c →
    c.firing ∈ sys.started ∧ c.rest.Honest known (c.firing.Gives known)
  given : ∀ f result, (f, result) ∈ sys.finished → f ∈ sys.started ∧ f.Gives known result

theorem Sound.idle (known : Identity → Prop) (capacity : Nat) :
    Sound known (System.idle (BoundedMap.empty capacity) : System κ) where
  stored key i h := by simp [System.idle] at h
  working core c h := by simp [System.idle] at h
  given f result h := by simp [System.idle] at h

variable [DecidableEq κ]

/-- A removal, if the act comes from elsewhere. -/
def Act.Reaps : Act κ → Prop
  | .change c => ∃ key, c = .delete key
  | _ => True

theorem Sound.step (h : Sound known sys) (act : Act κ) (hreaps : act.Reaps)
    (hknown : ∀ f ∈ (sys.step act).started, f.Enters → known f.origin) :
    Sound known (sys.step act) := by
  have hmoves := sys.step_moves act
  generalize sys.step act = next at hmoves hknown
  cases hmoves with
  | busy | rest => exact h
  | start core firing hidle =>
    have hprogram := honest_program firing (hknown firing (List.mem_cons_self ..))
    refine ⟨h.stored, System.forall_update core (fun other c hc => ?_) ?_, fun f result hf => ?_⟩
    · obtain ⟨hstarted, hhonest⟩ := h.working other c hc
      exact ⟨List.mem_cons_of_mem firing hstarted, hhonest⟩
    · intro c hc
      cases hc
      exact ⟨List.mem_cons_self .., hprogram⟩
    · obtain ⟨hstarted, hgives⟩ := h.given f result hf
      exact ⟨List.mem_cons_of_mem firing hstarted, hgives⟩
  | operate core firing rest hat =>
    obtain ⟨hstarted, hhonest⟩ := h.working core _ hat
    obtain ⟨hrest, hstored⟩ := hhonest.step h.stored
    refine ⟨hstored, System.forall_update core h.working ?_, h.given⟩
    intro c hc
    cases hc
    exact ⟨hstarted, hrest⟩
  | finish core firing result hat =>
    obtain ⟨hstarted, hgives⟩ := h.working core _ hat
    refine ⟨h.stored, System.forall_update core h.working ?_, fun f r hf => ?_⟩
    · intro c hc
      cases hc
    · rcases List.mem_cons.mp hf with heq | hf
      · cases heq
        exact ⟨hstarted, hgives⟩
      · exact h.given f r hf
  | change c =>
    obtain ⟨key, rfl⟩ := hreaps
    exact ⟨h.stored.delete key, h.working, h.given⟩

theorem Sound.run (acts : List (Act κ)) (h : Sound known sys) (hreaps : ∀ act ∈ acts, act.Reaps)
    (hknown : ∀ f ∈ (sys.run acts).started, f.Enters → known f.origin) :
    Sound known (sys.run acts) := by
  induction acts generalizing sys with
  | nil => exact h
  | cons act rest ih =>
    have hsofar := (sys.step act).started_subset_run rest
    have hnext := h.step act (hreaps act (List.mem_cons_self ..)) fun f hf =>
      hknown f (hsofar hf)
    exact ih hnext (fun later hlater => hreaps later (List.mem_cons_of_mem act hlater)) hknown

/-- **Identities come from firings, and stay.** Whatever the order of acts: what is stored
names the first sight of a buffer with a head by a firing that has started, and so does the
section that a firing writes, where there is room for one; a firing that frees without replacing
the head leaves no record of its own; and the next act, whatever it is, changes nothing but the
last sight of an entry that stays. -/
theorem identities_have_origins (capacity : Nat) (acts : List (Act κ))
    (hreaps : ∀ act ∈ acts, act.Reaps) (sys : System κ)
    (hsys : sys = (System.idle (BoundedMap.empty capacity)).run acts) :
    (∀ key r, sys.store.lookup key = some r →
      ∃ f ∈ sys.started, f.head ≠ 0 ∧ r.identity = f.origin) ∧
    (∀ f result, (f, result) ∈ sys.finished → f.head = 0 ∧ result = f.report none ∨
      ∃ first ∈ sys.started, first.head ≠ 0 ∧ result = f.report (some first.origin) ∧
        f.Writes first.origin result) ∧
    (∀ i, (∀ f ∈ sys.started, f.origin = i → f.frees = true ∧ f.invalidates = false) →
      ∀ key r, sys.store.lookup key = some r → r.identity ≠ i) ∧
    ∀ act key r r', sys.store.lookup key = some r → (sys.step act).store.lookup key = some r' →
      r' = { r with lastSeen := r'.lastSeen } := by
  let entered : Identity → Prop := fun i => ∃ f ∈ sys.started, f.Enters ∧ i = f.origin
  have hsound : Sound entered sys := by
    rw [hsys]
    apply (Sound.idle entered capacity).run acts hreaps
    rw [← hsys]
    exact fun f hf henters => ⟨f, hf, henters, rfl⟩
  have hstored (key : Address) (r : Record) (h : sys.store.lookup key = some r) :
      ∃ f ∈ sys.started, f.Enters ∧ r.identity = f.origin :=
    hsound.stored key r.identity (Store.identityAt_of_lookup h)
  refine ⟨fun key r h => ?_, fun f result h => ?_, fun i hnever key r h hi => ?_,
    fun act key r r' => sys.lookup_step act⟩
  · obtain ⟨f, hf, henters, horigin⟩ := hstored key r h
    exact ⟨f, hf, henters.head_ne_zero, horigin⟩
  · obtain ⟨hstarted, hnone | ⟨hhead, i, hi, hresult⟩⟩ := hsound.given f result h
    · exact .inl hnone
    · have hwrites : f.Writes i result := hresult ▸ f.writes_report i
      rcases hi with ⟨first, hfirst, henters, rfl⟩ | rfl
      · exact .inr ⟨first, hfirst, henters.head_ne_zero, hresult, hwrites⟩
      · exact .inr ⟨f, hstarted, hhead, hresult, hwrites⟩
  · obtain ⟨f, hf, henters, horigin⟩ := hstored key r h
    obtain ⟨hfrees, hinv⟩ := hnever f hf (horigin.symm.trans hi)
    exact Bool.false_ne_true (hinv.symm.trans (henters.kept hfrees))

/-- A core moves a record to its second head while another one has yet to read it, and the
record of the first head is reaped in between. -/
def reapedMidway : List (Act Bool) :=
  .start false (.bare (.ofFlags false true) 100 0x1000 0x11) :: List.replicate 6 (.advance false) ++
    [.start false (.bare .plain 110 0x1000 0x22), .start true (.bare .plain 120 0x1000 0x22),
      .advance false, .advance true, .advance false, .change (.delete 0x11), .advance false,
      .advance true, .advance false, .advance true, .advance true, .advance true]

theorem reapedMidway_origin :
    (∀ act ∈ reapedMidway, act.Reaps) ∧
      ∃ r, ((System.idle (BoundedMap.empty 4)).run reapedMidway).store.lookup 0x22 = some r ∧
        ∃ f ∈ ((System.idle (BoundedMap.empty 4)).run reapedMidway).started,
          f.head ≠ 0 ∧ r.identity = f.origin := by
  have hreaps : ∀ act ∈ reapedMidway, act.Reaps := by
    simp [reapedMidway, Act.Reaps]
  have horigin := (identities_have_origins 4 reapedMidway hreaps _ rfl).1
  exact ⟨hreaps, ⟨100, 100, 0x11⟩, by decide, horigin 0x22 ⟨100, 100, 0x11⟩ (by decide)⟩

end Lifeline
