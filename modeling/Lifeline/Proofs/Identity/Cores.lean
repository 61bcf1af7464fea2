import Lifeline.Proofs.Identity.Sequence
import Mathlib.Logic.Function.Basic

/-! Firings on many cores at once.

Every core runs one firing at a time. An act is one operation of a core, or one change that
comes from elsewhere, such as a removal by the reaper; acts of all cores follow one another
in any order. An act that is not possible is passed over, so that every list of acts is a
run. What a single act can do is said once (`System.step_moves`), and whatever it is, it
gives no entry another identity (`System.lookup_step`). -/
namespace Lifeline

/-! ### One operation -/

namespace Program

variable {α : Type}

/-- Carries out the next operation. -/
def step : Program α → Store → Program α × Store
  | done result, s => (done result, s)
  | lookup key next, s => (next (s.lookup key), s)
  | insertIfAbsent key record next, s =>
    (next (s.insertIfAbsent key record).1, (s.insertIfAbsent key record).2)
  | touch key now next, s => (next (s.touch key now).1, (s.touch key now).2)
  | delete key next, s => (next, s.delete key)

end Program

/-- One change to a store. -/
inductive Change where
  | insert (key : Address) (record : Record)
  | touch (key : Address) (now : Nanos)
  | delete (key : Address)

namespace Change

def key : Change → Address
  | insert key _ => key
  | touch key _ => key
  | delete key => key

def apply : Change → Store → Store
  | insert key record, s => (s.insertIfAbsent key record).2
  | touch key now, s => (s.touch key now).2
  | delete key, s => s.delete key

theorem lookup_apply_of_ne (c : Change) (s : Store) {k : Address} (h : k ≠ c.key) :
    (c.apply s).lookup k = s.lookup k := by
  cases c with
  | insert key record =>
    show (s.insertIfAbsent key record).2.lookup k = _
    rw [Store.lookup_insertIfAbsent, if_neg fun hkey => h hkey.2.symm]
  | touch key now =>
    show (s.touch key now).2.lookup k = _
    rw [Store.lookup_touch, if_neg fun hkey => h hkey.symm]
  | delete key =>
    show (s.delete key).lookup k = _
    rw [Store.lookup_delete, if_neg fun hkey => h hkey.symm]

theorem identityAt_apply_of_ne (c : Change) (s : Store) {k : Address} (h : k ≠ c.key) :
    (c.apply s).identityAt k = s.identityAt k := by
  rw [Store.identityAt, c.lookup_apply_of_ne s h, Store.identityAt]

/-- An entry that stays is as it was, but for the time of its last sight. -/
theorem lookup_apply (c : Change) {s : Store} {k : Address} {r r' : Record}
    (h : s.lookup k = some r) (h' : (c.apply s).lookup k = some r') :
    r' = { r with lastSeen := r'.lastSeen } := by
  cases c with
  | insert key record =>
    have hold : (s.insertIfAbsent key record).2.lookup k = s.lookup k := by
      rw [Store.lookup_insertIfAbsent, if_neg]
      intro hin
      obtain ⟨⟨hfree, -⟩, rfl⟩ := hin
      rw [h] at hfree
      exact Option.some_ne_none r hfree
    obtain rfl : r = r' := Option.some.inj (h.symm.trans (hold.symm.trans h'))
    rfl
  | touch key now =>
    have hat := s.lookup_touch key now k
    rw [h] at hat
    have hr : some r' = _ := h'.symm.trans hat
    split at hr
    · cases hr
      rfl
    · cases hr
      rfl
  | delete key =>
    have hat := s.lookup_delete key k
    rw [h] at hat
    have hr : some r' = _ := h'.symm.trans hat
    split at hr
    · exact absurd hr (Option.some_ne_none r')
    · cases hr
      rfl

end Change

/-- An operation reads, or makes one change. -/
theorem Program.step_store {α : Type} (p : Program α) (s : Store) :
    (p.step s).2 = s ∨ ∃ c : Change, (p.step s).2 = c.apply s := by
  cases p with
  | done result => exact .inl rfl
  | lookup key next => exact .inl rfl
  | insertIfAbsent key record next => exact .inr ⟨.insert key record, rfl⟩
  | touch key now next => exact .inr ⟨.touch key now, rfl⟩
  | delete key next => exact .inr ⟨.delete key, rfl⟩

/-! ### The system -/

/-- A core at work: the firing that it runs, and what is left of it. -/
structure Core where
  firing : Firing
  rest : Program (Outcome × RawEvent)

/-- Cores, told apart by `κ`, on one store. -/
structure System (κ : Type) where
  store : Store
  /-- What each core is at, if it is not idle. -/
  cores : κ → Option Core
  /-- Firings so far, the latest first. -/
  started : List Firing
  /-- What came of those that are over, the latest first. -/
  finished : List (Firing × Outcome × RawEvent)

/-- What may happen next. -/
inductive Act (κ : Type) where
  | start (core : κ) (firing : Firing)
  | advance (core : κ)
  | change (c : Change)

namespace System

variable {κ : Type}

/-- No core has done anything yet. -/
def idle (s : Store) : System κ :=
  ⟨s, fun _ => none, [], []⟩

/-- A core that is not idle stays with its firing, and one that is may take the next. -/
def step [DecidableEq κ] (sys : System κ) : Act κ → System κ
  | .start core firing =>
    match sys.cores core with
    | none =>
      { sys with
        cores := Function.update sys.cores core (some ⟨firing, firing.program⟩)
        started := firing :: sys.started }
    | some _ => sys
  | .advance core =>
    match sys.cores core with
    | none => sys
    | some ⟨firing, .done result⟩ =>
      { sys with
        cores := Function.update sys.cores core none
        finished := (firing, result) :: sys.finished }
    | some ⟨firing, rest⟩ =>
      { sys with
        store := (rest.step sys.store).2
        cores := Function.update sys.cores core (some ⟨firing, (rest.step sys.store).1⟩) }
  | .change c => { sys with store := c.apply sys.store }

def run [DecidableEq κ] (sys : System κ) : List (Act κ) → System κ
  | [] => sys
  | act :: rest => (sys.step act).run rest

/-- What one act can do. -/
inductive Moves [DecidableEq κ] (sys : System κ) : Act κ → System κ → Prop where
  | busy (core : κ) (firing : Firing) (c : Core) (h : sys.cores core = some c) :
    Moves sys (.start core firing) sys
  | rest (core : κ) (h : sys.cores core = none) : Moves sys (.advance core) sys
  | start (core : κ) (firing : Firing) (h : sys.cores core = none) :
    Moves sys (.start core firing)
      { sys with
        cores := Function.update sys.cores core (some ⟨firing, firing.program⟩)
        started := firing :: sys.started }
  | operate (core : κ) (firing : Firing) (rest : Program (Outcome × RawEvent))
    (h : sys.cores core = some ⟨firing, rest⟩) :
    Moves sys (.advance core)
      { sys with
        store := (rest.step sys.store).2
        cores := Function.update sys.cores core (some ⟨firing, (rest.step sys.store).1⟩) }
  | finish (core : κ) (firing : Firing) (result : Outcome × RawEvent)
    (h : sys.cores core = some ⟨firing, .done result⟩) :
    Moves sys (.advance core)
      { sys with
        cores := Function.update sys.cores core none
        finished := (firing, result) :: sys.finished }
  | change (c : Change) : Moves sys (.change c) { sys with store := c.apply sys.store }

variable [DecidableEq κ]

/-- What holds of every core at work still does, once it holds of the one that has moved. -/
theorem forall_update {P : Core → Prop} {cores : κ → Option Core} (core : κ) {now : Option Core}
    (h : ∀ other c, cores other = some c → P c) (hnow : ∀ c, now = some c → P c) :
    ∀ other c, Function.update cores core now other = some c → P c := by
  intro other c hc
  by_cases hcore : other = core
  · subst hcore
    rw [Function.update_self] at hc
    exact hnow c hc
  · rw [Function.update_of_ne hcore] at hc
    exact h other c hc

theorem step_moves (sys : System κ) (act : Act κ) : sys.Moves act (sys.step act) := by
  cases act with
  | start core firing =>
    simp only [step]
    split
    · rename_i hidle
      exact .start core firing hidle
    · rename_i c hbusy
      exact .busy core firing c hbusy
  | advance core =>
    simp only [step]
    split
    · rename_i hidle
      exact .rest core hidle
    · rename_i firing result hdone
      exact .finish core firing result hdone
    · rename_i firing rest _ hat
      exact .operate core firing rest hat
  | change c => exact .change c

theorem started_subset_step (sys : System κ) (act : Act κ) :
    sys.started ⊆ (sys.step act).started := by
  have hmoves := sys.step_moves act
  generalize sys.step act = next at hmoves
  cases hmoves with
  | start core firing h => exact List.subset_cons_self firing sys.started
  | busy | rest | operate | finish | change => exact List.Subset.refl sys.started

theorem started_subset_run (sys : System κ) (acts : List (Act κ)) :
    sys.started ⊆ (sys.run acts).started := by
  induction acts generalizing sys with
  | nil => exact List.Subset.refl sys.started
  | cons act rest ih => exact List.Subset.trans (sys.started_subset_step act) (ih (sys.step act))

/-- No act gives an entry another identity. -/
theorem lookup_step (sys : System κ) (act : Act κ) {key : Address} {r r' : Record}
    (h : sys.store.lookup key = some r) (h' : (sys.step act).store.lookup key = some r') :
    r' = { r with lastSeen := r'.lastSeen } := by
  have hmoves := sys.step_moves act
  generalize sys.step act = next at hmoves h'
  have hsame (hr : sys.store.lookup key = some r') : r' = { r with lastSeen := r'.lastSeen } := by
    obtain rfl : r = r' := Option.some.inj (h.symm.trans hr)
    rfl
  cases hmoves with
  | busy | rest | start | finish => exact hsame h'
  | operate core firing rest hat =>
    rcases rest.step_store sys.store with hstore | ⟨c, hstore⟩
    · exact hsame (hstore ▸ h')
    · exact c.lookup_apply h (hstore ▸ h')
  | change c => exact c.lookup_apply h h'

end System

end Lifeline
