import Lifeline.Proofs.Identity.Sequence

/-! Rivals do not show in what a firing writes.

Other cores may add and remove entries right before each change that a firing makes to the store,
so that its insertions are refused and what it looks up again has changed. But whom it reports is
decided by the lookups that come before its first change (`Program.Resolves`). From then on it adds
records of that one identity and ends in that one report, whatever it is answered
(`Program.Settles`).

`report_among_rivals` compares any two ways in which rivals can act, and says what a firing itself
does to the store among them. -/
namespace Lifeline

namespace Program

variable {α β : Type}

/-! ### The operations of a run -/

/-- One operation of a program: the store that it met, and the store that it left. -/
structure Turn where
  met : Store
  left : Store

/-- The operations of a program that runs among rivals, in order. -/
def turns (others : Schedule) : Tally → Program α → Store → List Turn
  | _, done _, _ => []
  | t, lookup key next, s => ⟨s, s⟩ :: (next (s.lookup key)).turns others t s
  | t, insertIfAbsent key record next, s =>
    let met := others.disturb t .insert s
    let answer := met.insertIfAbsent key record
    ⟨met, answer.2⟩ :: (next answer.1).turns others (t.next .insert) answer.2
  | t, touch key now next, s =>
    let met := others.disturb t .touch s
    let answer := met.touch key now
    ⟨met, answer.2⟩ :: (next answer.1).turns others (t.next .touch) answer.2
  | t, delete key next, s =>
    let met := others.disturb t .delete s
    ⟨met, met.delete key⟩ :: next.turns others (t.next .delete) (met.delete key)

/-- Turns lead from one store to another if rivals do all that happens between them. -/
inductive Leads : Store → List Turn → Store → Prop where
  | nil (s : Store) : Leads s [] s
  | cons {s left final : Store} {rest : List Turn} (rivals : List Rival)
    (h : Leads left rest final) :
    Leads s (⟨rivals.foldl (fun s rival => rival.act s) s, left⟩ :: rest) final

/-- The turns of a run are all that happens in it, apart from the acts of rivals. -/
theorem leads_turns (p : Program α) (others : Schedule) (t : Tally) (s : Store) :
    Leads s (p.turns others t s) (p.runAmong others t s).2 := by
  induction p generalizing t s with
  | done result => exact .nil s
  | lookup key next ih => exact .cons [] (ih _ t s)
  | insertIfAbsent key record next ih => exact .cons (others .insert (t .insert + 1)) (ih _ _ _)
  | touch key now next ih => exact .cons (others .touch (t .touch + 1)) (ih _ _ _)
  | delete key next ih => exact .cons (others .delete (t .delete + 1)) (ih _ _)

/-! ### One operation -/

/-- What a turn may do at an address: nothing, or clear it, or fill it if it was free. -/
def Turn.Adds (i : Identity) (turn : Turn) : Prop :=
  ∀ key, turn.left.identityAt key = turn.met.identityAt key ∨ turn.left.identityAt key = none ∨
    turn.met.identityAt key = none ∧ turn.left.identityAt key = some i

variable {i : Identity}

theorem adds_lookup (i : Identity) (s : Store) : Turn.Adds i ⟨s, s⟩ :=
  fun _ => .inl rfl

theorem adds_insertIfAbsent (s : Store) (key : Address) {record : Record}
    (h : record.identity = i) : Turn.Adds i ⟨s, (s.insertIfAbsent key record).2⟩ := by
  intro k
  show (s.insertIfAbsent key record).2.identityAt k = _ ∨ _
  rw [Store.identityAt_insertIfAbsent]
  split
  · rename_i hin
    obtain ⟨⟨hfree, -⟩, rfl⟩ := hin
    exact .inr (.inr ⟨hfree, congrArg some h⟩)
  · exact .inl rfl

theorem adds_touch (i : Identity) (s : Store) (key : Address) (now : Nanos) :
    Turn.Adds i ⟨s, (s.touch key now).2⟩ :=
  fun k => .inl (s.identityAt_touch key now k)

theorem adds_delete (i : Identity) (s : Store) (key : Address) :
    Turn.Adds i ⟨s, s.delete key⟩ := by
  intro k
  show (s.delete key).identityAt k = _ ∨ (s.delete key).identityAt k = none ∨ _
  rw [Store.identityAt_delete]
  split
  · exact .inr (.inl rfl)
  · exact .inl rfl

/-! ### Programs whose mind is made up -/

variable {post : α → Prop} {post' : β → Prop} {p : Program α} {s : Store}

/-- Whatever the program is answered, it adds records of this identity only, and what it gives in
the end is as said. -/
def Settles (i : Identity) (post : α → Prop) : Program α → Prop
  | done result => post result
  | lookup _ next => ∀ answer, (next answer).Settles i post
  | insertIfAbsent _ record next => record.identity = i ∧ ∀ added, (next added).Settles i post
  | touch _ _ next => ∀ renewed, (next renewed).Settles i post
  | delete _ next => next.Settles i post

/-- The same of a program whose lookups are answered from this store as long as it has changed
nothing. -/
def Resolves (s : Store) (i : Identity) (post : α → Prop) : Program α → Prop
  | done result => post result
  | lookup key next => (next (s.lookup key)).Resolves s i post
  | insertIfAbsent _ record next => record.identity = i ∧ ∀ added, (next added).Settles i post
  | touch _ _ next => ∀ renewed, (next renewed).Settles i post
  | delete _ next => next.Settles i post

theorem Settles.resolves (h : p.Settles i post) (s : Store) : p.Resolves s i post := by
  induction p with
  | done result => exact h
  | lookup key next ih => exact ih _ (h _)
  | insertIfAbsent key record next ih => exact h
  | touch key now next ih => exact h
  | delete key next ih => exact h

theorem Settles.bind {k : α → Program β} (h : p.Settles i post)
    (hk : ∀ a, post a → (k a).Settles i post') : (p >>= k).Settles i post' := by
  show (p.andThen k).Settles i post'
  induction p with
  | done result => exact hk result h
  | lookup key next ih => exact fun answer => ih answer (h answer)
  | insertIfAbsent key record next ih => exact ⟨h.1, fun added => ih added (h.2 added)⟩
  | touch key now next ih => exact fun renewed => ih renewed (h renewed)
  | delete key next ih => exact ih h

theorem Resolves.bind {k : α → Program β} (h : p.Resolves s i post)
    (hk : ∀ a, post a → (k a).Settles i post') : (p >>= k).Resolves s i post' := by
  show (p.andThen k).Resolves s i post'
  induction p with
  | done result => exact (hk result h).resolves s
  | lookup key next ih => exact ih _ h
  | insertIfAbsent key record next ih => exact ⟨h.1, fun added => (h.2 added).bind hk⟩
  | touch key now next ih => exact fun renewed => (h renewed).bind hk
  | delete key next ih => exact Settles.bind h hk

theorem settles_pure (i : Identity) {a : α} (h : post a) : (pure a : Program α).Settles i post := h

theorem settles_get (i : Identity) (key : Address) : (get key).Settles i fun _ => True :=
  fun _ => trivial

theorem settles_insert (key : Address) {record : Record} (h : record.identity = i) :
    (insert key record).Settles i fun _ => True :=
  ⟨h, fun _ => trivial⟩

theorem settles_renew (i : Identity) (key : Address) (now : Nanos) :
    (renew key now).Settles i fun _ => True :=
  fun _ => trivial

theorem settles_remove (i : Identity) (key : Address) : (remove key).Settles i fun _ => True :=
  trivial

theorem resolves_get_bind (s : Store) (i : Identity) (key : Address)
    (next : Option Record → Program β) :
    (get key >>= next).Resolves s i post' ↔ (next (s.lookup key)).Resolves s i post' :=
  Iff.rfl

/-- A program that is settled is so among all rivals, in what it gives and in what it does. -/
theorem Settles.runAmong (h : p.Settles i post) (others : Schedule) (t : Tally) (s : Store) :
    post (p.runAmong others t s).1 ∧ ∀ turn ∈ p.turns others t s, turn.Adds i := by
  induction p generalizing t s with
  | done result => exact ⟨h, List.forall_mem_nil _⟩
  | lookup key next ih =>
    obtain ⟨hend, hlater⟩ := ih _ (h _) t s
    exact ⟨hend, List.forall_mem_cons.mpr ⟨adds_lookup i s, hlater⟩⟩
  | insertIfAbsent key record next ih =>
    obtain ⟨hend, hlater⟩ := ih _ (h.2 _) (t.next .insert) _
    exact ⟨hend, List.forall_mem_cons.mpr ⟨adds_insertIfAbsent _ key h.1, hlater⟩⟩
  | touch key now next ih =>
    obtain ⟨hend, hlater⟩ := ih _ (h _) (t.next .touch) _
    exact ⟨hend, List.forall_mem_cons.mpr ⟨adds_touch i _ key now, hlater⟩⟩
  | delete key next ih =>
    obtain ⟨hend, hlater⟩ := ih h (t.next .delete) _
    exact ⟨hend, List.forall_mem_cons.mpr ⟨adds_delete i _ key, hlater⟩⟩

/-- So is one that settles once its first lookups are answered, for nobody comes before those. -/
theorem Resolves.runAmong (h : p.Resolves s i post) (others : Schedule) (t : Tally) :
    post (p.runAmong others t s).1 ∧ ∀ turn ∈ p.turns others t s, turn.Adds i := by
  induction p with
  | done result => exact Settles.runAmong (p := done result) h others t s
  | lookup key next ih =>
    obtain ⟨hend, hlater⟩ := ih _ h
    exact ⟨hend, List.forall_mem_cons.mpr ⟨adds_lookup i s, hlater⟩⟩
  | insertIfAbsent key record next ih =>
    exact Settles.runAmong (p := insertIfAbsent key record next) h others t s
  | touch key now next ih => exact Settles.runAmong (p := touch key now next) h others t s
  | delete key next ih => exact Settles.runAmong (p := delete key next) h others t s

end Program

open Program

/-! ### What a firing settles on -/

section

variable {i : Identity}

theorem settles_relocate (head : Address) {record : Record} (h : record.identity = i) :
    (relocate head record).Settles i fun _ => True := by
  refine (settles_insert head h).bind fun added _ => ?_
  split
  · exact settles_pure i trivial
  · exact (settles_get i head).bind fun _ _ => settles_pure i trivial

variable {s : Store} {o : Observation}

theorem resolves_resolve (h : (s.recordOf o).identity = i) :
    (resolve o.skb o.head).Resolves s i fun found => found = s.found o := by
  unfold resolve
  rw [resolves_get_bind]
  cases hhead : s.lookup o.head with
  | some record => exact (show some record = s.found o by simp [Store.found, hhead])
  | none =>
    simp only [resolves_get_bind]
    cases hskb : s.lookup o.skb with
    | none => exact (show none = s.found o by simp [Store.found, hhead, hskb])
    | some record =>
      have hfound : some record = s.found o := by simp [Store.found, hhead, hskb]
      have hrecord : record.identity = i := by
        rw [← h, Store.recordOf, ← hfound, Option.getD_some]
      refine ((settles_relocate o.head hrecord).bind fun moved _ => ?_).resolves s
      split
      · exact (settles_remove i o.skb).bind fun _ _ => settles_pure i hfound
      · exact settles_pure i hfound

theorem resolves_recognize (behavior : Behavior) (h : (s.recordOf o).identity = i) :
    (recognize behavior o).Resolves s i fun record => record = s.recordOf o := by
  refine (resolves_resolve h).bind fun found hfound => ?_
  have hrecord : found.getD (Record.start o.head o.timestamp) = s.recordOf o := by
    rw [hfound, Store.recordOf]
  cases found with
  | some record => exact settles_pure i hrecord
  | none =>
    cases behavior.frees with
    | true => exact settles_pure i hrecord
    | false =>
      refine (settles_insert o.head ?_).bind fun _ _ => settles_pure i hrecord
      exact (congrArg Record.identity hrecord).trans h

theorem settles_forget (i : Identity) (behavior : Behavior) (o : Observation) :
    (forget behavior o).Settles i fun _ => True := by
  unfold forget
  split
  · refine (settles_remove i o.head).bind fun _ _ => ?_
    split
    · exact settles_remove i o.skb
    · exact settles_pure i trivial
  · exact settles_pure i trivial

theorem resolves_follow (behavior : Behavior) (h : (s.recordOf o).identity = i) :
    (follow behavior o).Resolves s i fun given => given = i := by
  refine (resolves_recognize behavior h).bind fun record hrecord => ?_
  refine (settles_renew i o.head o.timestamp).bind fun _ _ => ?_
  have hend : Program.Settles i (fun given => given = i)
      (forget behavior o >>= fun _ => pure record.identity) :=
    (settles_forget i behavior o).bind fun _ _ => settles_pure i (hrecord ▸ h)
  split
  · have hdoubled : ({ record with lastSeen := o.timestamp } : Record).identity = i :=
      hrecord ▸ h
    exact (settles_insert o.skb hdoubled).bind fun _ _ => hend
  · exact hend

end

namespace Firing

/-- Whom a firing reports: the record under its head, else the one under its buffer's address, else
a new buffer. -/
def reported (f : Firing) (s : Store) : Option Identity :=
  if f.head = 0 then none
  else some (((s.identityAt f.head).or (s.identityAt f.skb)).getD f.origin)

theorem reported_of_head {f : Firing} (hhead : f.head ≠ 0) (s : Store) :
    f.reported s = some (s.recordOf f.observation).identity := by
  rw [reported, if_neg hhead, s.identity_recordOf]
  rfl

theorem program_of_no_head {f : Firing} (hhead : f.head = 0) :
    f.program = .done (f.report none) := by
  unfold program track observe
  rw [if_pos hhead]
  rfl

theorem run_program (f : Firing) (s : Store) :
    (f.program.run s).1 = f.report (f.reported s) := by
  by_cases hhead : f.head = 0
  · rw [program_of_no_head hhead, reported, if_pos hhead]
    rfl
  · rw [f.program_run, f.identify_run s hhead, reported_of_head hhead]

theorem resolves_program (f : Firing) (s : Store) (hhead : f.head ≠ 0) :
    f.program.Resolves s (s.recordOf f.observation).identity
      fun given => given = f.report (f.reported s) := by
  have hfollow : Program.Resolves s (s.recordOf f.observation).identity
      (fun found => found = f.reported s)
      (follow f.behavior f.observation >>= fun i => pure (some i)) := by
    refine (resolves_follow f.behavior rfl).bind fun i hi => settles_pure _ ?_
    rw [reported_of_head hhead, hi]
  unfold program track observe
  rw [if_neg hhead]
  refine hfollow.bind fun found hfound => ?_
  rw [hfound, reported_of_head hhead]
  exact settles_pure _ rfl

/-- Among rivals a firing reports whom it would report alone, and enters nobody else. -/
theorem runAmong_program (f : Firing) (s : Store) (others : Schedule) :
    (f.program.runAmong others .zero s).1 = f.report (f.reported s) ∧
      ∀ turn ∈ f.program.turns others .zero s, ∃ i, f.reported s = some i ∧ turn.Adds i := by
  by_cases hhead : f.head = 0
  · rw [program_of_no_head hhead, reported, if_pos hhead]
    exact ⟨rfl, List.forall_mem_nil _⟩
  · obtain ⟨hgiven, hturns⟩ := (f.resolves_program s hhead).runAmong others .zero
    exact ⟨hgiven, fun turn hturn => ⟨_, reported_of_head hhead s, hturns turn hturn⟩⟩

end Firing

/-- **Rivals do not show in what a firing writes.** Whatever other cores add and remove right
before its changes to the store, a firing gives the same outcome and the same event as it does
alone: those of the identity that its first lookups found, under the head or else under the
buffer's address, or of a new buffer if neither was there. Its own operations are all that happens
in the run apart from the acts of rivals. None of them gives an entry that stays another identity,
and the only one that they enter at a free address is the one that is reported. -/
theorem report_among_rivals (f : Firing) (s : Store) (others others' : Schedule) :
    let given := (f.program.runAmong others .zero s).1
    let turns := f.program.turns others .zero s
    given = (f.program.runAmong others' .zero s).1 ∧
      given = (f.program.run s).1 ∧
      given = f.report (f.reported s) ∧
      Leads s turns (f.program.runAmong others .zero s).2 ∧
      ∀ turn ∈ turns, ∀ key i, turn.left.identityAt key = some i →
        (∀ i', turn.met.identityAt key = some i' → i' = i) ∧
        (turn.met.identityAt key = none → f.reported s = some i) := by
  intro given turns
  obtain ⟨hgiven, hturns⟩ := f.runAmong_program s others
  have hgiven' := (f.runAmong_program s others').1
  refine ⟨hgiven.trans hgiven'.symm, hgiven.trans (f.run_program s).symm, hgiven,
    f.program.leads_turns others .zero s, ?_⟩
  intro turn hturn key i hleft
  obtain ⟨shown, hshown, hadds⟩ := hturns turn hturn
  rcases hadds key with hsame | hcleared | ⟨hfree, hfilled⟩
  · rw [hleft] at hsame
    refine ⟨fun i' hmet => ?_, fun hmet => ?_⟩
    · exact Option.some.inj (hmet.symm.trans hsame.symm)
    · exact absurd (hsame.trans hmet) (Option.some_ne_none i)
  · exact absurd (hleft.symm.trans hcleared) (Option.some_ne_none i)
  · refine ⟨fun i' hmet => ?_, fun _ => ?_⟩
    · exact absurd (hmet.symm.trans hfree) (Option.some_ne_none i')
    · rw [hshown, ← hfilled, hleft]

/-- Another core enters the head right before the firing does. -/
def forestalled : Schedule
  | .insert, 1 => [.insert 0x11 (Record.start 0x11 90)]
  | _, _ => []

/-- The other core's record stays, and the firing reports its own. -/
example :
    let f := Firing.bare .plain 100 0x1000 0x11
    (f.identify.runAmong forestalled .zero (.empty 4)).1 = some f.origin ∧
      (f.identify.runAmong forestalled .zero (.empty 4)).2.identityAt 0x11 = some ⟨0x11, 90⟩ := by
  decide +kernel

end Lifeline
