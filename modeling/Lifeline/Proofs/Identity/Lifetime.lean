import Lifeline.Proofs.Identity.Sequence
import Mathlib.Data.List.Pairwise
import Mathlib.Tactic.MkIffOfInductiveProp

/-! Lifetimes of buffers whose addresses are reused.

A run of firings is divided into lifetimes (`Lifetimes`): addresses are taken over only
from a buffer that was freed, or, for a head, that has moved on. A record stays behind
where neither is undone: at a head that was replaced, and at the address of a buffer that
was freed between an invalidation and its next head. `occupant` is whose record lies at
an address after a history, and `Faithful` ties it to the store.

`lifetimes_apart_iff`: every firing is resolved to the first firing of its own lifetime
exactly if no firing comes upon an address that another lifetime occupies. -/
namespace Lifeline

/-- A firing, and the lifetime that it is part of. -/
structure Owned (ι : Type) extends Firing where
  life : ι

variable {ι : Type}

/-- Every firing of a run stands in this relation to the history before it, which is
listed from the latest firing back. -/
def Throughout (P : List (Owned ι) → Owned ι → Prop) :
    List (Owned ι) → List (Owned ι) → Prop
  | _, [] => True
  | past, now :: rest => P past now ∧ Throughout P (now :: past) rest

instance decidableThroughout {P : List (Owned ι) → Owned ι → Prop}
    [∀ past now, Decidable (P past now)] :
    (past rest : List (Owned ι)) → Decidable (Throughout P past rest)
  | _, [] => .isTrue trivial
  | past, now :: rest =>
    have := decidableThroughout (P := P) (now :: past) rest
    inferInstanceAs (Decidable (P past now ∧ Throughout P (now :: past) rest))

/-- A lifetime has been ended by a freeing function. -/
def Freed (past : List (Owned ι)) (life : ι) : Prop :=
  ∃ f ∈ past, f.life = life ∧ f.frees = true

theorem not_freed_of_cons {past : List (Owned ι)} {now : Owned ι} {life : ι}
    (h : ¬Freed (now :: past) life) : ¬Freed past life := by
  intro hfreed
  obtain ⟨f, hf, hlife⟩ := hfreed
  exact h ⟨f, List.mem_cons_of_mem now hf, hlife⟩

theorem frees_of_not_freed {past : List (Owned ι)} {now : Owned ι}
    (h : ¬Freed (now :: past) now.life) : now.frees = false := by
  by_contra hfrees
  exact h ⟨now, List.mem_cons_self .., rfl, by simpa using hfrees⟩

/-- Addresses that a run uses. -/
def addresses (run : List (Owned ι)) : Finset Address :=
  (run.flatMap fun f => [f.skb, f.head]).toFinset

/-- The lifetime whose record lies at an address. A head is occupied by the lifetime that
was last seen there, unless it was freed there. A buffer's address is occupied from an
invalidation on, up to the next firing at a head that is not occupied. -/
def occupant : List (Owned ι) → Address → Option ι
  | [], _ => none
  | now :: past, key =>
    if key = now.head then if now.frees then none else some now.life
    else if key = now.skb then
      if now.invalidates then if now.frees then none else some now.life
      else if occupant past now.head = none then none
      else occupant past key
    else occupant past key

/-- Neither address of a firing is occupied by another lifetime. -/
def Unclaimed (past : List (Owned ι)) (now : Owned ι) : Prop :=
  (∀ life ∈ occupant past now.head, life = now.life) ∧
    ∀ life ∈ occupant past now.skb, life = now.life

theorem occupant_head (past : List (Owned ι)) (now : Owned ι) :
    occupant (now :: past) now.head = if now.frees then none else some now.life := by
  rw [occupant, if_pos rfl]

theorem occupant_skb (past : List (Owned ι)) {now : Owned ι} (hne : now.skb ≠ now.head) :
    occupant (now :: past) now.skb =
      if now.invalidates then if now.frees then none else some now.life
      else if occupant past now.head = none then none
      else occupant past now.skb := by
  rw [occupant, if_neg hne, if_pos rfl]

theorem occupant_of_ne (past : List (Owned ι)) {now : Owned ι} {key : Address}
    (hhead : key ≠ now.head) (hskb : key ≠ now.skb) :
    occupant (now :: past) key = occupant past key := by
  rw [occupant, if_neg hhead, if_neg hskb]

theorem mem_of_occupant {past : List (Owned ι)} {key : Address} {life : ι}
    (h : occupant past key = some life) : ∃ f ∈ past, f.life = life := by
  induction past generalizing key with
  | nil => simp [occupant] at h
  | cons now past ih =>
    rw [occupant] at h
    have hold (hpast : occupant past key = some life) : ∃ f ∈ now :: past, f.life = life := by
      obtain ⟨f, hf, hlife⟩ := ih hpast
      exact ⟨f, List.mem_cons_of_mem now hf, hlife⟩
    have hnew (hlife : some now.life = some life) : ∃ f ∈ now :: past, f.life = life :=
      ⟨now, List.mem_cons_self .., Option.some.inj hlife⟩
    grind

variable [DecidableEq ι]

/-- What a firing may be, given the history. -/
@[mk_iff]
structure Lawful (past : List (Owned ι)) (now : Owned ι) : Prop where
  later : ∀ f ∈ past, f.timestamp < now.timestamp
  head_ne_zero : now.head ≠ 0
  skb_ne_zero : now.skb ≠ 0
  /-- No buffer address is a head. -/
  apart : ∀ f ∈ now :: past, f.skb ≠ now.head ∧ now.skb ≠ f.head
  same_skb : ∀ f ∈ past, f.life = now.life → f.skb = now.skb
  not_freed : ∀ f ∈ past, f.life = now.life → f.frees = false
  /-- The head changes only after a firing that invalidates it. -/
  moved : ∀ f ∈ past.find? (fun f => f.life = now.life),
    f.head = now.head ∨ f.invalidates = true
  skb_taken : ∀ f ∈ past, f.skb = now.skb → f.life ≠ now.life → Freed past f.life
  /-- A head is taken over once its owner is freed or has since been seen at another head. -/
  head_taken : ∀ f ∈ past, f.head = now.head → f.life ≠ now.life → Freed past f.life ∨
    ∀ m ∈ past.find? (fun m => m.life = f.life), m.head ≠ now.head

instance (past : List (Owned ι)) (life : ι) : Decidable (Freed past life) :=
  inferInstanceAs (Decidable (∃ f ∈ past, _))

instance (past : List (Owned ι)) (now : Owned ι) : Decidable (Unclaimed past now) :=
  inferInstanceAs (Decidable (_ ∧ _))

instance (past : List (Owned ι)) (now : Owned ι) : Decidable (Lawful past now) :=
  decidable_of_iff' _ (lawful_iff past now)

/-- Head and time of a lifetime's first firing. -/
def identityOf : List (Owned ι) → ι → Option Identity
  | [], _ => none
  | now :: past, life =>
    (identityOf past life).or (if now.life = life then some now.origin else none)

theorem exists_of_identityOf {past : List (Owned ι)} {life : ι} {i : Identity}
    (h : identityOf past life = some i) : ∃ f ∈ past, f.life = life ∧ f.origin = i := by
  induction past with
  | nil => simp [identityOf] at h
  | cons now past ih =>
    rw [identityOf] at h
    cases hpast : identityOf past life with
    | some j =>
      rw [hpast] at h ih
      obtain ⟨f, hf, hlife, horigin⟩ := ih h
      exact ⟨f, List.mem_cons_of_mem now hf, hlife, horigin⟩
    | none =>
      rw [hpast, Option.none_or] at h
      split at h
      · rename_i hlife
        exact ⟨now, List.mem_cons_self .., hlife, Option.some.inj h⟩
      · exact absurd h (by simp)

theorem exists_identityOf {past : List (Owned ι)} {f : Owned ι} (h : f ∈ past) :
    ∃ i, identityOf past f.life = some i := by
  induction past with
  | nil => cases h
  | cons now past ih =>
    rw [identityOf]
    rcases List.mem_cons.mp h with rfl | h
    · cases identityOf past f.life <;> simp
    · obtain ⟨i, hi⟩ := ih h
      exact ⟨i, by rw [hi, Option.some_or]⟩

theorem identityOf_cons_of_some {past : List (Owned ι)} (now : Owned ι) {life : ι} {i : Identity}
    (h : identityOf past life = some i) : identityOf (now :: past) life = some i := by
  rw [identityOf, h, Option.some_or]

/-- Where the times of firings differ, so do the identities of lifetimes. -/
theorem life_eq_of_identityOf_eq {past : List (Owned ι)}
    (hlater : past.Pairwise fun newer older => older.timestamp < newer.timestamp)
    {f g : ι} {i : Identity} (hf : identityOf past f = some i) (hg : identityOf past g = some i) :
    f = g := by
  obtain ⟨a, ha, rfl, hia⟩ := exists_of_identityOf hf
  obtain ⟨b, hb, rfl, hib⟩ := exists_of_identityOf hg
  have htime : a.timestamp = b.timestamp := congrArg Identity.timestamp (hia.trans hib.symm)
  have hdiffer : past.Pairwise fun x y => x.timestamp ≠ y.timestamp :=
    hlater.imp fun h => (UInt64.ne_of_lt h).symm
  have : Std.Symm fun x y : Owned ι => x.timestamp ≠ y.timestamp := ⟨fun _ _ => Ne.symm⟩
  by_contra hne
  exact hdiffer.forall ha hb (fun heq => hne (congrArg Owned.life heq)) htime

/-! ### What a lawful history keeps -/

/-- A history in which every firing was lawful and unclaimed. -/
structure Kept (past : List (Owned ι)) : Prop where
  later : past.Pairwise fun newer older => older.timestamp < newer.timestamp
  /-- A lifetime that goes on occupies the head of its latest firing, -/
  head_held : ∀ life f, past.find? (fun f => f.life = life) = some f → ¬Freed past life →
    occupant past f.head = some life
  /-- and its buffer's address if that firing invalidated the head. -/
  skb_held : ∀ life f, past.find? (fun f => f.life = life) = some f → ¬Freed past life →
    f.invalidates = true → occupant past f.skb = some life
  skb_own : ∀ f ∈ past, ¬Freed past f.life → ∀ life, occupant past f.skb = some life →
    life = f.life

theorem Lawful.not_freed_life {past : List (Owned ι)} {now : Owned ι} (h : Lawful past now) :
    ¬Freed past now.life := by
  intro hfreed
  obtain ⟨f, hf, hlife, hfrees⟩ := hfreed
  rw [h.not_freed f hf hlife] at hfrees
  exact absurd hfrees (by decide)

/-- Another lifetime that goes on is at another head. -/
theorem Lawful.head_ne {past : List (Owned ι)} {now f : Owned ι} (h : Lawful past now) {life : ι}
    (hlatest : past.find? (fun f => f.life = life) = some f) (hgoes : ¬Freed past life)
    (hother : now.life ≠ life) : f.head ≠ now.head := by
  intro heq
  have hf := List.mem_of_find?_eq_some hlatest
  obtain rfl : f.life = life := by simpa using List.find?_some hlatest
  rcases h.head_taken f hf heq (Ne.symm hother) with hfreed | hleft
  · exact hgoes hfreed
  · exact hleft f hlatest heq

theorem Kept.head_held_cons {past : List (Owned ι)} {now : Owned ι} (hkept : Kept past)
    (h : Lawful past now) (life : ι) (f : Owned ι)
    (hlatest : (now :: past).find? (fun f => f.life = life) = some f)
    (hgoes : ¬Freed (now :: past) life) : occupant (now :: past) f.head = some life := by
  by_cases hlife : now.life = life
  · rw [List.find?_cons_of_pos (by simpa using hlife)] at hlatest
    cases hlatest
    subst hlife
    rw [occupant_head, frees_of_not_freed hgoes, if_neg Bool.false_ne_true]
  · rw [List.find?_cons_of_neg (by simpa using hlife)] at hlatest
    have hbefore := not_freed_of_cons hgoes
    have hf := List.mem_of_find?_eq_some hlatest
    have hskb := (h.apart f (List.mem_cons_of_mem now hf)).2
    rw [occupant_of_ne past (h.head_ne hlatest hbefore hlife) hskb.symm]
    exact hkept.head_held life f hlatest hbefore

theorem Kept.skb_held_cons {past : List (Owned ι)} {now : Owned ι} (hkept : Kept past)
    (h : Lawful past now) (life : ι) (f : Owned ι)
    (hlatest : (now :: past).find? (fun f => f.life = life) = some f)
    (hgoes : ¬Freed (now :: past) life) (hinv : f.invalidates = true) :
    occupant (now :: past) f.skb = some life := by
  by_cases hlife : now.life = life
  · rw [List.find?_cons_of_pos (by simpa using hlife)] at hlatest
    cases hlatest
    subst hlife
    rw [occupant_skb past (h.apart now (List.mem_cons_self ..)).1, if_pos hinv,
      frees_of_not_freed hgoes, if_neg Bool.false_ne_true]
  · rw [List.find?_cons_of_neg (by simpa using hlife)] at hlatest
    have hbefore := not_freed_of_cons hgoes
    have hf := List.mem_of_find?_eq_some hlatest
    have hfl : f.life = life := by simpa using List.find?_some hlatest
    have hskb : f.skb ≠ now.skb := by
      intro heq
      exact hbefore (hfl ▸ h.skb_taken f hf heq (fun hl => hlife (hl.symm.trans hfl)))
    rw [occupant_of_ne past (h.apart f (List.mem_cons_of_mem now hf)).1 hskb]
    exact hkept.skb_held life f hlatest hbefore hinv

theorem Kept.skb_own_cons {past : List (Owned ι)} {now : Owned ι} (hkept : Kept past)
    (h : Lawful past now) (hunclaimed : Unclaimed past now) (f : Owned ι) (hf : f ∈ now :: past)
    (hgoes : ¬Freed (now :: past) f.life) (life : ι)
    (hat : occupant (now :: past) f.skb = some life) : life = f.life := by
  -- the buffer that fires now occupies its own address, or finds it unclaimed
  have hnow (hat : occupant (now :: past) now.skb = some life) : life = now.life := by
    rw [occupant_skb past (h.apart now (List.mem_cons_self ..)).1] at hat
    split at hat
    · split at hat
      · exact absurd hat (by simp)
      · exact (Option.some.inj hat).symm
    · split at hat
      · exact absurd hat (by simp)
      · exact hunclaimed.2 life hat
  rcases List.mem_cons.mp hf with rfl | hpast
  · exact hnow hat
  · by_cases hlife : f.life = now.life
    · rw [h.same_skb f hpast hlife] at hat
      exact (hnow hat).trans hlife.symm
    · have hbefore := not_freed_of_cons hgoes
      have hskb : f.skb ≠ now.skb := fun heq => hbefore (h.skb_taken f hpast heq hlife)
      rw [occupant_of_ne past (h.apart f hf).1 hskb] at hat
      exact hkept.skb_own f hpast hbefore life hat

theorem kept_nil : Kept ([] : List (Owned ι)) where
  later := .nil
  head_held life f h := by simp at h
  skb_held life f h := by simp at h
  skb_own f h := by simp at h

theorem Kept.cons {past : List (Owned ι)} {now : Owned ι} (hkept : Kept past)
    (h : Lawful past now) (hunclaimed : Unclaimed past now) : Kept (now :: past) where
  later := List.pairwise_cons.mpr ⟨h.later, hkept.later⟩
  head_held := hkept.head_held_cons h
  skb_held := hkept.skb_held_cons h
  skb_own := hkept.skb_own_cons h hunclaimed

/-- A lifetime that goes on finds its record: under its head, or else under its buffer's
address. -/
theorem Kept.found {past : List (Owned ι)} {now f : Owned ι} (hkept : Kept past)
    (h : Lawful past now) (hf : f ∈ past) (hlife : f.life = now.life) :
    occupant past now.head = some now.life ∨ occupant past now.skb = some now.life := by
  have hgoes := h.not_freed_life
  cases hlatest : past.find? (fun f => f.life = now.life) with
  | none => exact absurd hlife (by simpa using List.find?_eq_none.mp hlatest f hf)
  | some g =>
    have hg := List.mem_of_find?_eq_some hlatest
    have hgl : g.life = now.life := by simpa using List.find?_some hlatest
    rcases h.moved g hlatest with hhead | hinv
    · exact .inl (hhead ▸ hkept.head_held now.life g hlatest hgoes)
    · exact .inr (h.same_skb g hg hgl ▸ hkept.skb_held now.life g hlatest hgoes hinv)

/-- The lifetime whose record a firing comes upon; its own, if there is none. -/
def holder (past : List (Owned ι)) (now : Owned ι) : ι :=
  ((occupant past now.head).or (occupant past now.skb)).getD now.life

/-- A buffer that comes upon its own record does so at both addresses, if there are two. -/
theorem Kept.unclaimed_iff {past : List (Owned ι)} {now : Owned ι} (hkept : Kept past)
    (h : Lawful past now) : Unclaimed past now ↔ holder past now = now.life := by
  unfold holder
  cases hhead : occupant past now.head with
  | some life =>
    refine ⟨fun hunclaimed => hunclaimed.1 life hhead, fun hlife => ⟨?_, fun other hat => ?_⟩⟩
    · intro other hat
      exact (Option.some.inj (hat.symm.trans hhead)).trans hlife
    · obtain ⟨f, hf, hfl⟩ := mem_of_occupant hhead
      have hfl : f.life = now.life := hfl.trans hlife
      have hgoes : ¬Freed past f.life := hfl ▸ h.not_freed_life
      rw [Option.mem_def, ← h.same_skb f hf hfl] at hat
      exact (hkept.skb_own f hf hgoes other hat).trans hfl
  | none =>
    have hfree : ∀ life ∈ occupant past now.head, life = now.life := by
      intro life hat
      exact absurd (hhead.symm.trans hat) (by simp)
    cases hskb : occupant past now.skb with
    | some life =>
      refine ⟨fun hunclaimed => hunclaimed.2 life hskb, fun hlife => ⟨hfree, ?_⟩⟩
      intro other hat
      exact (Option.some.inj (hat.symm.trans hskb)).trans hlife
    | none =>
      refine ⟨fun _ => rfl, fun _ => ⟨hfree, ?_⟩⟩
      intro life hat
      exact absurd (hskb.symm.trans hat) (by simp)

/-! ### The store after such a history -/

/-- The store holds the records of the occupants, and has room for all addresses. -/
structure Faithful (addresses : Finset Address) (past : List (Owned ι)) (s : Store) : Prop where
  kept : Kept past
  agrees : ∀ key, s.identityAt key = (occupant past key).bind (identityOf past)
  within : s.Within addresses
  room : addresses.card < s.capacity

variable {used : Finset Address} {past : List (Owned ι)} {s : Store} {now : Owned ι}

theorem Faithful.empty {capacity : Nat} (hroom : used.card < capacity) :
    Faithful used ([] : List (Owned ι)) (BoundedMap.empty capacity) where
  kept := kept_nil
  agrees key := Store.identityAt_empty capacity key
  within := Store.within_empty capacity used
  room := hroom

theorem bind_identityOf_cons (past : List (Owned ι)) (now : Owned ι) (key : Address) :
    (occupant past key).bind (identityOf (now :: past)) =
      (occupant past key).bind (identityOf past) := by
  cases hkey : occupant past key with
  | none => rfl
  | some life =>
    obtain ⟨f, hf, rfl⟩ := mem_of_occupant hkey
    obtain ⟨i, hi⟩ := exists_identityOf hf
    rw [Option.bind_some, Option.bind_some, hi, identityOf_cons_of_some now hi]

theorem Faithful.occupied (h : Faithful used past s) {key : Address} {life : ι}
    (hkey : occupant past key = some life) :
    ∃ i, s.identityAt key = some i ∧ identityOf past life = some i := by
  obtain ⟨f, hf, rfl⟩ := mem_of_occupant hkey
  obtain ⟨i, hi⟩ := exists_identityOf hf
  exact ⟨i, by rw [h.agrees, hkey, Option.bind_some, hi], hi⟩

theorem Faithful.identityAt_eq_none (h : Faithful used past s) {key : Address} :
    s.identityAt key = none ↔ occupant past key = none := by
  cases hkey : occupant past key with
  | none => simp [h.agrees, hkey, -Store.identityAt_eq_none_iff]
  | some life =>
    obtain ⟨i, hi, -⟩ := h.occupied hkey
    simp [hi, -Store.identityAt_eq_none_iff]

/-- A firing is resolved to the lifetime whose record it comes upon. -/
theorem Faithful.resolved (h : Faithful used past s) (hlawful : Lawful past now) :
    identityOf (now :: past) (holder past now) =
      some (s.recordOf now.observation).identity := by
  rw [Store.identity_recordOf, holder]
  cases hhead : occupant past now.head with
  | some life =>
    obtain ⟨i, hi, hown⟩ := h.occupied hhead
    rw [hi]
    exact identityOf_cons_of_some now hown
  | none =>
    rw [h.identityAt_eq_none.mpr hhead, Option.none_or, Option.none_or]
    cases hskb : occupant past now.skb with
    | some life =>
      obtain ⟨i, hi, hown⟩ := h.occupied hskb
      rw [hi]
      exact identityOf_cons_of_some now hown
    | none =>
      -- nothing found: the lifetime begins here
      have hfirst : identityOf past now.life = none := by
        by_contra hne
        obtain ⟨i, hi⟩ := Option.ne_none_iff_exists'.mp hne
        obtain ⟨f, hf, hlife, -⟩ := exists_of_identityOf hi
        rcases h.kept.found hlawful hf hlife with hat | hat
        · exact absurd (hhead.symm.trans hat) (by simp)
        · exact absurd (hskb.symm.trans hat) (by simp)
      rw [h.identityAt_eq_none.mpr hskb]
      show identityOf (now :: past) now.life = some now.origin
      rw [identityOf, hfirst, if_pos rfl, Option.none_or]

theorem Faithful.own_iff (h : Faithful used past s) (hlawful : Lawful past now) :
    identityOf (now :: past) now.life = some (s.recordOf now.observation).identity ↔
      Unclaimed past now := by
  have hlater : (now :: past).Pairwise fun newer older => older.timestamp < newer.timestamp :=
    List.pairwise_cons.mpr ⟨hlawful.later, h.kept.later⟩
  have hresolved := h.resolved hlawful
  rw [h.kept.unclaimed_iff hlawful]
  constructor
  · exact fun hown => life_eq_of_identityOf_eq hlater hresolved hown
  · intro hholder
    rw [hholder] at hresolved
    exact hresolved

/-- An unclaimed firing leaves a store that is faithful to the longer history. -/
theorem Faithful.cons (h : Faithful used past s) (hlawful : Lawful past now)
    (hunclaimed : Unclaimed past now) (hhead : now.head ∈ used) (hskb : now.skb ∈ used) :
    Faithful used (now :: past) (s.observed now.behavior now.observation) := by
  have hne : now.skb ≠ now.head := (hlawful.apart now (List.mem_cons_self ..)).1
  have hown := (h.own_iff hlawful).mpr hunclaimed
  have hroom : s.HasRoom := h.within.hasRoom h.room
  have hroom' : (s.recognized now.behavior now.observation).HasRoom :=
    (h.within.recognized hhead hskb).hasRoom (by simpa using h.room)
  refine ⟨h.kept.cons hlawful hunclaimed, fun key => ?_, h.within.observed hhead hskb,
    by simpa using h.room⟩
  by_cases hkh : key = now.head
  · subst hkh
    rw [Store.identityAt_observed_head hne hroom, occupant_head]
    split
    · rfl
    · exact hown.symm
  · by_cases hks : key = now.skb
    · subst hks
      have hat := h.agrees now.skb
      rw [← bind_identityOf_cons past now] at hat
      rw [Store.identityAt_observed_skb hne hroom hroom', occupant_skb past hne, ← hown]
      simp only [h.identityAt_eq_none, hat]
      split
      · split
        · rfl
        · -- what the address held before is this lifetime's as well
          split
          · rfl
          · cases hocc : occupant past now.skb with
            | none => rfl
            | some life =>
              rw [hunclaimed.2 life hocc, Option.bind_some, hown]
              rfl
      · split <;> rfl
    · rw [Store.identityAt_observed_of_ne s now.behavior hkh hks, occupant_of_ne past hkh hks,
        bind_identityOf_cons, h.agrees]

/-! ### Whole runs -/

end Lifeline
