import Lifeline.Proofs.Identity.Cores

/-! A record moves from its buffer's address to the head, once.

Any number of cores may find the record under the buffer's address and set out to move it.
Until one of them succeeds nothing but the refused insertions happens to the two addresses
(`Waiting`); from then on the head holds the identity for good, and the record is left
under the buffer's address only as long as the core that moved it has yet to remove it
(`Moved`). A core may remove it only if it has seen the head held, and may add to the head
anything but that record only if it has (`Careful`).

`handover_keeps_identity` says what this comes to, for every order of acts. -/
namespace Lifeline

/-! ### What such a firing does -/

/-- The end of a firing that neither frees nor replaces the head. -/
def Firing.renewal (f : Firing) (r : Record) : Program (Outcome × RawEvent) :=
  .touch f.head f.timestamp fun _ => .done (f.report (some r.identity))

/-- All of a firing that neither frees nor replaces the head. -/
def Firing.plainText (f : Firing) : Program (Outcome × RawEvent) :=
  .lookup f.head fun
    | some r => f.renewal r
    | none => .lookup f.skb fun
      | some r => .insertIfAbsent f.head r fun
        | true => .delete f.skb (f.renewal r)
        | false => .lookup f.head fun
          | some _ => .delete f.skb (f.renewal r)
          | none => f.renewal r
      | none => .insertIfAbsent f.head (Record.start f.head f.timestamp) fun _ =>
        f.renewal (Record.start f.head f.timestamp)

theorem Firing.program_eq_plainText (f : Firing) (hhead : f.head ≠ 0) (hfrees : f.frees = false)
    (hinv : f.invalidates = false) : f.program = f.plainText := by
  unfold Firing.program track observe follow recognize resolve relocate forget
  rw [if_neg hhead]
  simp only [hfrees, hinv, Bool.false_eq_true, if_false, Bool.not_false, if_true]
  show Program.lookup _ _ = Program.lookup _ _
  congr 1
  funext byHead
  cases byHead with
  | some r => rfl
  | none =>
    show Program.lookup _ _ = Program.lookup _ _
    congr 1
    funext bySkb
    cases bySkb with
    | none => rfl
    | some r =>
      show Program.insertIfAbsent _ _ _ = Program.insertIfAbsent _ _ _
      congr 1
      funext added
      cases added with
      | true => rfl
      | false =>
        show Program.lookup _ _ = Program.lookup _ _
        congr 1
        funext held
        cases held with
        | none => rfl
        | some _ => rfl

/-! ### One core -/

/-- What a core may still do to the two addresses, given whether it has seen the head held. -/
inductive Careful (skb head : Address) (record : Record) {α : Type} : Bool → Program α → Prop where
  | done {seen : Bool} (result : α) : Careful skb head record seen (.done result)
  | lookHead {seen : Bool} {next : Option Record → Program α}
    (hheld : ∀ r, Careful skb head record true (next (some r)))
    (hfree : seen = false → Careful skb head record false (next none)) :
    Careful skb head record seen (.lookup head next)
  /-- A record that is gone from the buffer's address was moved to the head. -/
  | lookSkb {seen : Bool} {next : Option Record → Program α}
    (hthere : Careful skb head record seen (next (some record)))
    (hgone : Careful skb head record true (next none)) :
    Careful skb head record seen (.lookup skb next)
  | move {next : Bool → Program α} {rest : Program α}
    (hmoved : next true = .delete skb rest) (hrest : Careful skb head record true rest)
    (hrefused : Careful skb head record false (next false)) :
    Careful skb head record false (.insertIfAbsent head record next)
  | add {r : Record} {next : Bool → Program α}
    (hrefused : Careful skb head record true (next false)) :
    Careful skb head record true (.insertIfAbsent head r next)
  | renew {seen : Bool} {now : Nanos} {next : Bool → Program α}
    (h : ∀ renewed, Careful skb head record seen (next renewed)) :
    Careful skb head record seen (.touch head now next)
  | remove {rest : Program α} (h : Careful skb head record true rest) :
    Careful skb head record true (.delete skb rest)

theorem careful_program (f : Firing) (hhead : f.head ≠ 0) (hfrees : f.frees = false)
    (hinv : f.invalidates = false) (record : Record) :
    Careful f.skb f.head record false f.program := by
  rw [f.program_eq_plainText hhead hfrees hinv]
  have hend (r : Record) (seen : Bool) : Careful f.skb f.head record seen (f.renewal r) :=
    .renew fun _ => .done _
  refine .lookHead (fun r => hend r true) fun _ => .lookSkb ?_ ?_
  · refine .move rfl (hend record true) ?_
    exact .lookHead (fun _ => .remove (hend record true)) fun _ => hend record false
  · exact .add (hend _ true)

variable {skb head : Address} {record : Record} {α : Type} {p : Program α} {s : Store}

/-- The record is still under the buffer's address, and the head is free. -/
structure Store.Waits (skb head : Address) (record : Record) (s : Store) : Prop where
  skb_holds : s.lookup skb = some record
  head_free : s.lookup head = none

/-- The head holds the record's identity, and the buffer's address nothing else. -/
structure Store.Held (skb head : Address) (record : Record) (s : Store) : Prop where
  head_holds : s.identityAt head = some record.identity
  skb_holds : s.lookup skb = none ∨ s.lookup skb = some record

theorem Store.Waits.skb_ne_head (h : s.Waits skb head record) : skb ≠ head := by
  intro heq
  have hskb := h.skb_holds
  rw [heq, h.head_free] at hskb
  exact absurd hskb (by simp)

/-- While the record waits, an operation leaves it waiting, unless it moves it: then the core
is about to remove it from the buffer's address. -/
theorem Careful.step_waits (hp : Careful skb head record false p)
    (hs : s.Waits skb head record) :
    ((p.step s).2.Waits skb head record ∧ Careful skb head record false (p.step s).1 ∧
      ∀ r next, p = .insertIfAbsent head r next → ¬s.HasRoom) ∨
    (∃ next, p = .insertIfAbsent head record next) ∧ s.HasRoom ∧
      (p.step s).2.Held skb head record ∧
      ∃ rest, (p.step s).1 = .delete skb rest ∧ Careful skb head record true rest := by
  have hne := hs.skb_ne_head
  cases hp with
  | done result => exact .inl ⟨hs, .done result, fun r next h => by cases h⟩
  | @lookHead _ next hheld hfree =>
    refine .inl ⟨hs, ?_, fun r next h => by cases h⟩
    show Careful skb head record false (next (s.lookup head))
    rw [hs.head_free]
    exact hfree rfl
  | @lookSkb _ next hthere hgone =>
    refine .inl ⟨hs, ?_, fun r next h => by cases h⟩
    show Careful skb head record false (next (s.lookup skb))
    rw [hs.skb_holds]
    exact hthere
  | @move next rest hmoved hrest hrefused =>
    by_cases hroom : s.HasRoom
    · have hadded := (s.insertIfAbsent_fst head record).mpr ⟨hs.head_free, hroom⟩
      have hat := s.lookup_insertIfAbsent head record
      refine .inr ⟨⟨next, rfl⟩, hroom, ⟨?_, .inr ?_⟩, rest, ?_, hrest⟩
      · show (s.insertIfAbsent head record).2.identityAt head = _
        rw [Store.identityAt, hat, if_pos ⟨⟨hs.head_free, hroom⟩, rfl⟩, Option.map_some]
      · show (s.insertIfAbsent head record).2.lookup skb = _
        rw [hat, if_neg (fun h => hne h.2.symm), hs.skb_holds]
      · show next (s.insertIfAbsent head record).1 = _
        rw [hadded, hmoved]
    · have hstep : (Program.insertIfAbsent head record next).step s = (next false, s) := by
        rw [Program.step, Store.insertIfAbsent_refused fun h => hroom h.2]
      rw [hstep]
      exact .inl ⟨hs, hrefused, fun _ _ _ => hroom⟩
  | @renew _ now next h =>
    refine .inl ⟨⟨?_, ?_⟩, h _, fun r next h => by cases h⟩
    · show (s.touch head now).2.lookup skb = _
      rw [Store.lookup_touch, if_neg (Ne.symm hne), hs.skb_holds]
    · show (s.touch head now).2.lookup head = _
      rw [Store.lookup_touch, if_pos rfl, hs.head_free, Option.map_none]

/-- Once the head is held, no operation changes what it holds, and the record goes from the
buffer's address at the latest when a core is about to remove it. -/
theorem Careful.step_held {seen : Bool} (hp : Careful skb head record seen p)
    (hs : s.Held skb head record) (hne : skb ≠ head) :
    (p.step s).2.Held skb head record ∧ (∃ seen, Careful skb head record seen (p.step s).1) ∧
      ((p.step s).2.lookup skb = none ∨
        (p.step s).2.lookup skb = s.lookup skb ∧ ∀ rest, p ≠ .delete skb rest) := by
  obtain ⟨r, hr, hidentity⟩ := Store.lookup_of_identityAt hs.head_holds
  have hstep (r' : Record) (next : Bool → Program α) :
      (Program.insertIfAbsent head r' next).step s = (next false, s) := by
    rw [Program.step, Store.insertIfAbsent_refused]
    intro hin
    exact absurd (hin.1.symm.trans hr) (by simp)
  cases hp with
  | done result => exact ⟨hs, ⟨seen, .done result⟩, .inr ⟨rfl, fun rest h => by cases h⟩⟩
  | @lookHead _ next hheld hfree =>
    refine ⟨hs, ⟨true, ?_⟩, .inr ⟨rfl, fun rest h => by cases h⟩⟩
    show Careful skb head record true (next (s.lookup head))
    rw [hr]
    exact hheld r
  | @lookSkb _ next hthere hgone =>
    refine ⟨hs, ?_, .inr ⟨rfl, fun rest h => by cases h⟩⟩
    show ∃ seen, Careful skb head record seen (next (s.lookup skb))
    rcases hs.skb_holds with hnone | hsome
    · exact ⟨true, hnone ▸ hgone⟩
    · exact ⟨seen, hsome ▸ hthere⟩
  | @move next rest hmoved hrest hrefused =>
    rw [hstep]
    exact ⟨hs, ⟨false, hrefused⟩, .inr ⟨rfl, fun rest h => by cases h⟩⟩
  | @add r' next hrefused =>
    rw [hstep]
    exact ⟨hs, ⟨true, hrefused⟩, .inr ⟨rfl, fun rest h => by cases h⟩⟩
  | @renew _ now next h =>
    have hskb : (s.touch head now).2.lookup skb = s.lookup skb := by
      rw [Store.lookup_touch, if_neg (Ne.symm hne)]
    refine ⟨⟨?_, ?_⟩, ⟨seen, h _⟩, .inr ⟨hskb, fun rest h => by cases h⟩⟩
    · show (s.touch head now).2.identityAt head = _
      rw [Store.identityAt_touch, hs.head_holds]
    · show (s.touch head now).2.lookup skb = none ∨ (s.touch head now).2.lookup skb = some record
      rw [hskb]
      exact hs.skb_holds
  | @remove rest h =>
    have hgone : (s.delete skb).lookup skb = none := by
      rw [Store.lookup_delete, if_pos rfl]
    refine ⟨⟨?_, .inl hgone⟩, ⟨true, h⟩, .inl hgone⟩
    show (s.delete skb).identityAt head = _
    rw [Store.identityAt_delete, if_neg hne, hs.head_holds]

/-! ### All cores -/

variable {κ : Type} {sys : System κ}

/-- A core is about to remove what is under the buffer's address. -/
def Leaving (skb : Address) (cores : κ → Option Core) : Prop :=
  ∃ core c rest, cores core = some c ∧ c.rest = .delete skb rest

/-- The record waits, and no core has seen the head held. -/
structure Waiting (skb head : Address) (record : Record) (sys : System κ) : Prop where
  store : sys.store.Waits skb head record
  working : ∀ core c, sys.cores core = some c → Careful skb head record false c.rest

/-- The record has been moved. Where it is under the buffer's address as well, some core is
about to remove it there. -/
structure Moved (skb head : Address) (record : Record) (sys : System κ) : Prop where
  store : sys.store.Held skb head record
  working : ∀ core c, sys.cores core = some c → ∃ seen, Careful skb head record seen c.rest
  leaving : sys.store.lookup skb = none ∨ Leaving skb sys.cores

/-- A firing on the buffer that neither frees it nor replaces the head, or a change at other
addresses. -/
def Act.Attends (skb head : Address) : Act κ → Prop
  | .start _ f => f.skb = skb ∧ f.head = head ∧ f.frees = false ∧ f.invalidates = false
  | .advance _ => True
  | .change c => c.key ≠ skb ∧ c.key ≠ head

/-- By this act a core tries to add a record. -/
def System.Adds (sys : System κ) (key : Address) (r : Record) : Act κ → Prop
  | .advance core => ∃ c next, sys.cores core = some c ∧ c.rest = .insertIfAbsent key r next
  | _ => False

variable [DecidableEq κ]

theorem Leaving.update {cores : κ → Option Core} (h : Leaving skb cores) (core : κ)
    (now : Option Core) (hnot : ∀ c rest, cores core = some c → c.rest ≠ .delete skb rest) :
    Leaving skb (Function.update cores core now) := by
  obtain ⟨other, c, rest, hc, hrest⟩ := h
  refine ⟨other, c, rest, ?_, hrest⟩
  have hne : other ≠ core := by
    intro heq
    exact hnot c rest (heq ▸ hc) hrest
  rw [Function.update_of_ne hne, hc]

theorem Waiting.step (h : Waiting skb head record sys) (hhead : head ≠ 0) (act : Act κ)
    (hact : act.Attends skb head) :
    (Waiting skb head record (sys.step act) ∧ ∀ r, sys.Adds head r act → ¬sys.store.HasRoom) ∨
    (Moved skb head record (sys.step act) ∧ sys.Adds head record act ∧ sys.store.HasRoom) := by
  have hmoves := sys.step_moves act
  generalize sys.step act = next at hmoves
  cases hmoves with
  | busy core firing c hbusy => exact .inl ⟨h, fun r hadds => hadds.elim⟩
  | rest core hidle =>
    refine .inl ⟨h, fun r hadds => ?_⟩
    obtain ⟨c, next, hc, -⟩ := hadds
    exact absurd (hidle.symm.trans hc) (by simp)
  | start core firing hidle =>
    obtain ⟨rfl, rfl, hfrees, hinv⟩ := hact
    refine .inl ⟨⟨h.store, System.forall_update core h.working ?_⟩, fun r hadds => hadds.elim⟩
    intro c hc
    cases hc
    exact careful_program firing hhead hfrees hinv record
  | operate core firing rest hat =>
    rcases (h.working core _ hat).step_waits h.store with
      ⟨hstore, hcareful, hfull⟩ | ⟨⟨next, hadds⟩, hroom, hstore, rest', hremoves, hcareful⟩
    · refine .inl ⟨⟨hstore, System.forall_update core h.working ?_⟩, fun r hadds => ?_⟩
      · intro c hc
        cases hc
        exact hcareful
      · obtain ⟨c, next, hc, hrest⟩ := hadds
        obtain rfl := Option.some.inj (hat.symm.trans hc)
        exact hfull r next hrest
    · refine .inr ⟨⟨hstore, System.forall_update core (fun other c hc => ?_) ?_, .inr ?_⟩,
        ⟨_, next, hat, hadds⟩, hroom⟩
      · exact ⟨false, h.working other c hc⟩
      · intro c hc
        cases hc
        exact ⟨true, hremoves ▸ .remove hcareful⟩
      · exact ⟨core, _, rest', Function.update_self .., hremoves⟩
  | finish core firing result hat =>
    refine .inl ⟨⟨h.store, System.forall_update core h.working ?_⟩, fun r hadds => ?_⟩
    · intro c hc
      cases hc
    · obtain ⟨c, next, hc, hrest⟩ := hadds
      obtain rfl := Option.some.inj (hat.symm.trans hc)
      cases hrest
  | change c =>
    obtain ⟨hskb, hkey⟩ := hact
    refine .inl ⟨⟨⟨?_, ?_⟩, h.working⟩, fun r hadds => hadds.elim⟩
    · exact (c.lookup_apply_of_ne sys.store (Ne.symm hskb)).trans h.store.skb_holds
    · exact (c.lookup_apply_of_ne sys.store (Ne.symm hkey)).trans h.store.head_free

theorem Moved.step (h : Moved skb head record sys) (hne : skb ≠ head) (hhead : head ≠ 0)
    (act : Act κ) (hact : act.Attends skb head) : Moved skb head record (sys.step act) := by
  have hmoves := sys.step_moves act
  generalize sys.step act = next at hmoves
  cases hmoves with
  | busy | rest => exact h
  | start core firing hidle =>
    obtain ⟨rfl, rfl, hfrees, hinv⟩ := hact
    refine ⟨h.store, System.forall_update core h.working ?_, h.leaving.imp_right fun hl => ?_⟩
    · intro c hc
      cases hc
      exact ⟨false, careful_program firing hhead hfrees hinv record⟩
    · apply hl.update
      intro c rest hc
      exact absurd (hidle.symm.trans hc) (by simp)
  | operate core firing rest hat =>
    obtain ⟨seen, hcareful⟩ := h.working core _ hat
    obtain ⟨hstore, hnext, hskb⟩ := hcareful.step_held h.store hne
    refine ⟨hstore, System.forall_update core h.working ?_, ?_⟩
    · intro c hc
      cases hc
      exact hnext
    · rcases hskb with hgone | ⟨hsame, hstays⟩
      · exact .inl hgone
      · refine h.leaving.imp (fun hgone => hsame.trans hgone) fun hl => ?_
        apply hl.update
        intro c rest' hc
        obtain rfl := Option.some.inj (hat.symm.trans hc)
        exact hstays rest'
  | finish core firing result hat =>
    refine ⟨h.store, System.forall_update core h.working ?_, h.leaving.imp_right fun hl => ?_⟩
    · intro c hc
      cases hc
    · apply hl.update
      intro c rest hc
      obtain rfl := Option.some.inj (hat.symm.trans hc)
      intro hrest
      cases hrest
  | change c =>
    obtain ⟨hskb, hkey⟩ := hact
    have hsame := c.lookup_apply_of_ne sys.store (Ne.symm hskb)
    refine ⟨⟨?_, ?_⟩, h.working, h.leaving.imp_left fun hgone => hsame.trans hgone⟩
    · exact (c.identityAt_apply_of_ne sys.store (Ne.symm hkey)).trans h.store.head_holds
    · exact h.store.skb_holds.imp (fun hgone => hsame.trans hgone) fun hr => hsame.trans hr

/-! ### Whole runs -/

/-- In the course of a run a core tries to add a record, and finds this store. -/
inductive Attempt (key : Address) : System κ → List (Act κ) → Record → Store → Prop where
  | now {sys : System κ} {act : Act κ} {r : Record} (rest : List (Act κ))
    (h : sys.Adds key r act) : Attempt key sys (act :: rest) r sys.store
  | later {sys : System κ} {act : Act κ} {rest : List (Act κ)} {r : Record} {s : Store}
    (h : Attempt key (sys.step act) rest r s) : Attempt key sys (act :: rest) r s

theorem Moved.run (acts : List (Act κ)) (h : Moved skb head record sys) (hne : skb ≠ head)
    (hhead : head ≠ 0) (hacts : ∀ act ∈ acts, act.Attends skb head) :
    Moved skb head record (sys.run acts) := by
  induction acts generalizing sys with
  | nil => exact h
  | cons act rest ih =>
    have hnext := h.step hne hhead act (hacts act (List.mem_cons_self ..))
    exact ih hnext fun later hlater => hacts later (List.mem_cons_of_mem act hlater)

/-- The record waits as long as every attempt finds the store full, and is moved by the first
one that does not. -/
theorem Waiting.run (acts : List (Act κ)) (h : Waiting skb head record sys) (hhead : head ≠ 0)
    (hacts : ∀ act ∈ acts, act.Attends skb head) :
    (Waiting skb head record (sys.run acts) ∧
      ∀ r s, Attempt head sys acts r s → ¬s.HasRoom) ∨
    (Moved skb head record (sys.run acts) ∧
      ∃ s, Attempt head sys acts record s ∧ s.lookup head = none ∧ s.HasRoom) := by
  induction acts generalizing sys with
  | nil => exact .inl ⟨h, fun r s hat => by cases hat⟩
  | cons act rest ih =>
    have hrest : ∀ later ∈ rest, later.Attends skb head :=
      fun later hlater => hacts later (List.mem_cons_of_mem act hlater)
    rcases h.step hhead act (hacts act (List.mem_cons_self ..)) with
      ⟨hwaits, hfull⟩ | ⟨hmoved, hadds, hroom⟩
    · rcases ih hwaits hrest with ⟨hstill, hall⟩ | ⟨hmoved, s, hattempt, hfree, hroom⟩
      · refine .inl ⟨hstill, fun r s hattempt => ?_⟩
        cases hattempt with
        | now rest hnow => exact hfull r hnow
        | later hlater => exact hall r s hlater
      · exact .inr ⟨hmoved, s, .later hattempt, hfree, hroom⟩
    · refine .inr ⟨hmoved.run rest h.store.skb_ne_head hhead hrest, sys.store, ?_⟩
      exact ⟨.now rest hadds, h.store.head_free, hroom⟩

/-- **A record is neither lost nor doubled by its move.** Whatever the order in which cores
with plain firings on one buffer take their turns, and whatever happens at other addresses:
the identity is under one of the two addresses at any time, and the head holds no other.
Once all cores are done, only one address holds a record: the head, if an attempt to move it
met a free head and room in the store, or else, every attempt having met a full store, still
the buffer's. -/
theorem handover_keeps_identity (s : Store) (skb head : Address) (record : Record)
    (hskb : s.lookup skb = some record) (hfree : s.lookup head = none) (hhead : head ≠ 0)
    (acts : List (Act κ)) (hacts : ∀ act ∈ acts, act.Attends skb head) (sys : System κ)
    (hsys : sys = (System.idle s).run acts) :
    (sys.store.identityAt skb = some record.identity ∨
      sys.store.identityAt head = some record.identity) ∧
    (∀ i, sys.store.identityAt head = some i → i = record.identity) ∧
    ((∀ core, sys.cores core = none) →
      (sys.store.identityAt head = some record.identity ∧ sys.store.lookup skb = none ∧
        ∃ s', Attempt head (System.idle s) acts record s' ∧ s'.lookup head = none ∧ s'.HasRoom) ∨
      (sys.store.lookup skb = some record ∧ sys.store.lookup head = none ∧
        ∀ r s', Attempt head (System.idle s) acts r s' → ¬s'.HasRoom)) := by
  have hstart : Waiting skb head record (System.idle s : System κ) :=
    ⟨⟨hskb, hfree⟩, fun core c hc => by cases hc⟩
  rw [hsys]
  rcases hstart.run acts hhead hacts with ⟨hwaits, hfull⟩ | ⟨hmoved, hattempt⟩
  · have hnone := Store.identityAt_eq_none_iff.mpr hwaits.store.head_free
    refine ⟨.inl (Store.identityAt_of_lookup hwaits.store.skb_holds), fun i hi => ?_, fun _ => ?_⟩
    · exact absurd (hnone.symm.trans hi) (by simp)
    · exact .inr ⟨hwaits.store.skb_holds, hwaits.store.head_free, hfull⟩
  · have hheld := hmoved.store.head_holds
    refine ⟨.inr hheld, fun i hi => ?_, fun hdone => .inl ⟨hheld, ?_, hattempt⟩⟩
    · exact Option.some.inj (hi.symm.trans hheld)
    · rcases hmoved.leaving with hgone | ⟨core, c, rest, hc, -⟩
      · exact hgone
      · exact absurd ((hdone core).symm.trans hc) (by simp)

/-- Both cores find the record under the buffer's address; the second one is refused, and is
the first to remove it. -/
def raced : List (Act Bool) :=
  [.start false (.bare .plain 110 0x1000 0x22), .start true (.bare .plain 120 0x1000 0x22),
    .advance false, .advance true, .advance false, .advance true, .advance false,
    .change (.insert 0x33 (Record.start 0x33 115)), .advance true, .advance true, .advance true,
    .advance false, .advance true, .advance false, .advance true, .advance false]

/-- A store that holds one record, at a buffer's address. -/
def waitingStore : Store :=
  (Store.insertIfAbsent (BoundedMap.empty 2) 0x1000 (Record.start 0x11 100)).2

theorem raced_moved :
    waitingStore.lookup 0x1000 = some (Record.start 0x11 100) ∧
      waitingStore.lookup 0x22 = none ∧ (∀ act ∈ raced, act.Attends 0x1000 0x22) ∧
      ((System.idle waitingStore).run raced).store.identityAt 0x22 = some ⟨0x11, 100⟩ ∧
      ((System.idle waitingStore).run raced).store.lookup 0x1000 = none := by
  have hskb : waitingStore.lookup 0x1000 = some (Record.start 0x11 100) := by decide
  have hfree : waitingStore.lookup 0x22 = none := by decide
  have hacts : ∀ act ∈ raced, act.Attends 0x1000 0x22 := by
    simp [raced, Act.Attends, Firing.bare, Firing.frees, Firing.invalidates, Change.key,
      Behavior.plain]
  have hrun := handover_keeps_identity waitingStore 0x1000 0x22 (Record.start 0x11 100) hskb hfree
    (by decide) raced hacts _ rfl
  refine ⟨hskb, hfree, hacts, ?_⟩
  rcases hrun.2.2 (fun core => by cases core <;> rfl) with ⟨hmoved, hgone, -⟩ | ⟨hstill, -, -⟩
  · exact ⟨hmoved, hgone⟩
  · exact absurd hstill (by decide)

end Lifeline
