import Lifeline.Proofs.Probe.Acceptance

/-! Which probe a symbol gets.

A probe set comes about by upserts since it last started anew. It has the symbols of these in the
order in which each came first, and for each symbol the probe that came last (`ProbeSet.Tells`,
kept by every upsert). A file makes its upserts up to the first symbol that it names again.

`probes_keyed_by_symbol` says this of every sequence of operations, and of the sources that a set
is built from. -/
namespace Lifeline.Probe

/-- The last of some probes with a symbol. -/
def latest? (made : List Spec) (symbol : String) : Option Spec :=
  made.reverse.find? (·.symbol == symbol)

theorem latest?_append (before after : List Spec) (symbol : String) :
    latest? (before ++ after) symbol = (latest? after symbol).or (latest? before symbol) := by
  rw [latest?, List.reverse_append, List.find?_append, latest?, latest?]

theorem latest?_concat (made : List Spec) (p : Spec) (symbol : String) :
    latest? (made ++ [p]) symbol = if p.symbol = symbol then some p else latest? made symbol := by
  rw [latest?_append]
  by_cases h : p.symbol = symbol <;> simp [latest?, h]

/-- Where no symbol comes twice, the last probe with a symbol is the first. -/
theorem latest?_of_nodup {made : List Spec} (h : (made.map Spec.symbol).Nodup) (symbol : String) :
    latest? made symbol = made.find? (·.symbol == symbol) := by
  induction made with
  | nil => rfl
  | cons p rest ih =>
    obtain ⟨hnew, hrest⟩ := List.nodup_cons.mp h
    rw [← List.singleton_append, latest?_append, ih hrest, List.singleton_append]
    by_cases hp : p.symbol = symbol
    · have hnone : rest.find? (·.symbol == symbol) = none := by
        refine List.find?_eq_none.mpr fun q hq hsymbol => hnew ?_
        rw [hp, ← beq_iff_eq.mp hsymbol]
        exact List.mem_map_of_mem hq
      rw [hnone, Option.none_or, latest?, List.reverse_singleton, List.find?_cons, List.find?_cons,
        beq_iff_eq.mpr hp]
    · rw [List.find?_cons_of_neg (by simpa using hp)]
      simp [latest?, hp]

theorem map_symbol_upsert (p : Spec) (l : List Spec) :
    (upsert p l).map Spec.symbol =
      if p.symbol ∈ l.map Spec.symbol then l.map Spec.symbol
      else l.map Spec.symbol ++ [p.symbol] := by
  induction l with
  | nil => rfl
  | cons q rest ih =>
    rw [upsert]
    by_cases h : q.symbol = p.symbol
    · simp [h]
    · rw [if_neg h, List.map_cons, ih, List.map_cons]
      by_cases hmem : p.symbol ∈ rest.map Spec.symbol
      · rw [if_pos hmem, if_pos (List.mem_cons_of_mem _ hmem)]
      · rw [if_neg hmem, if_neg (by simp [hmem, Ne.symm h]), List.cons_append]

theorem find?_upsert (p : Spec) (l : List Spec) (symbol : String) :
    (upsert p l).find? (·.symbol == symbol) =
      if p.symbol = symbol then some p else l.find? (·.symbol == symbol) := by
  induction l with
  | nil => by_cases h : p.symbol = symbol <;> simp [upsert, h]
  | cons q rest ih =>
    rw [upsert]
    by_cases hq : q.symbol = p.symbol
    · by_cases h : p.symbol = symbol <;> simp [hq, h]
    · rw [if_neg hq]
      by_cases h : q.symbol = symbol
      · have hp : p.symbol ≠ symbol := fun hp => hq (h.trans hp.symm)
        simp [h, hp]
      · simp [h, ih]

/-! ### Files -/

/-- The entries of a file before the first whose symbol was named already. -/
def leading (named : List String) : List Spec → List Spec
  | [] => []
  | p :: rest => if p.symbol ∈ named then [] else p :: leading (p.symbol :: named) rest

/-- Symbols that are all different, and none of them named. -/
def Fresh (named : List String) (l : List Spec) : Prop :=
  (l.map Spec.symbol).Nodup ∧ ∀ p ∈ l, p.symbol ∉ named

theorem fresh_cons {named : List String} {p : Spec} {l : List Spec} :
    Fresh named (p :: l) ↔ p.symbol ∉ named ∧ Fresh (p.symbol :: named) l := by
  unfold Fresh
  rw [List.forall_mem_cons, List.map_cons, List.nodup_cons, List.mem_map]
  constructor
  · rintro ⟨⟨hnew, hnodup⟩, hp, hl⟩
    refine ⟨hp, hnodup, fun q hq hnamed => ?_⟩
    exact (List.mem_cons.mp hnamed).elim (fun heq => hnew ⟨q, hq, heq⟩) (hl q hq)
  · rintro ⟨hp, hnodup, hl⟩
    refine ⟨⟨?_, hnodup⟩, hp, fun q hq hnamed => hl q hq (List.mem_cons_of_mem _ hnamed)⟩
    rintro ⟨q, hq, heq⟩
    exact hl q hq (heq ▸ List.mem_cons_self)

theorem fresh_nil_iff {l : List Spec} : Fresh [] l ↔ (l.map Spec.symbol).Nodup := by
  simp [Fresh]

/-- The entries of a file are fresh as far as they lead, and end there or go on with a symbol that
is not. -/
theorem leading_cases (named : List String) (l : List Spec) :
    Fresh named (leading named l) ∧
      (leading named l = l ∨ ∃ p after, l = leading named l ++ p :: after ∧
        (p.symbol ∈ named ∨ p.symbol ∈ (leading named l).map Spec.symbol)) := by
  induction l generalizing named with
  | nil => simp [leading, Fresh]
  | cons p rest ih =>
    rw [leading]
    split
    · rename_i hnamed
      exact ⟨by simp [Fresh], .inr ⟨p, rest, rfl, .inl hnamed⟩⟩
    · rename_i hnew
      obtain ⟨hfresh, hend⟩ := ih (p.symbol :: named)
      refine ⟨fresh_cons.mpr ⟨hnew, hfresh⟩, hend.imp (congrArg _) ?_⟩
      rintro ⟨q, after, hrest, hq⟩
      refine ⟨q, after, congrArg _ hrest, ?_⟩
      rw [List.map_cons, List.mem_cons]
      rcases hq with hq | hq
      · exact (List.mem_cons.mp hq).elim (fun h => .inr (.inl h)) .inl
      · exact .inr (.inr hq)

namespace ProbeSet

theorem applyProbes_of_fresh {named : List String} {l : List Spec} (h : Fresh named l)
    (s : ProbeSet) : applyProbes named s l = (l.foldl upsert s, .ok ()) := by
  induction l generalizing named s with
  | nil => rfl
  | cons p rest ih =>
    obtain ⟨hnew, hrest⟩ := fresh_cons.mp h
    rw [applyProbes, if_neg hnew, ih hrest, List.foldl_cons]

/-- Entries are refused from the first on whose symbol was named before. -/
theorem applyProbes_of_repeated {named : List String} {before : List Spec} {p : Spec}
    (h : Fresh named before) (hp : p.symbol ∈ named ∨ p.symbol ∈ before.map Spec.symbol)
    (after : List Spec) (s : ProbeSet) :
    applyProbes named s (before ++ p :: after) =
      (before.foldl upsert s, .error (.repeated p.symbol)) := by
  induction before generalizing named s with
  | nil => rw [List.nil_append, applyProbes, if_pos (hp.resolve_right List.not_mem_nil)]; rfl
  | cons q rest ih =>
    obtain ⟨hnew, hrest⟩ := fresh_cons.mp h
    have hq : p.symbol ∈ q.symbol :: named ∨ p.symbol ∈ rest.map Spec.symbol := by
      simpa [or_assoc, or_left_comm] using hp
    rw [List.cons_append, applyProbes, if_neg hnew, ih hrest hq, List.foldl_cons]

/-- The set that the entries of a file are applied to. -/
def base (s : ProbeSet) (file : ConfigFile) : ProbeSet :=
  if file.replaceDefaults then empty else s

/-- A file is refused if it names a symbol twice, after the entries before the first repeated. -/
theorem applyFile_cases (s : ProbeSet) (file : ConfigFile) :
    ((file.probes.map Spec.symbol).Nodup ∧ leading [] file.probes = file.probes ∧
        s.applyFile file = (file.probes.foldl upsert (s.base file), .ok ())) ∨
      ∃ p after, file.probes = leading [] file.probes ++ p :: after ∧
        ((leading [] file.probes).map Spec.symbol).Nodup ∧
        p.symbol ∈ (leading [] file.probes).map Spec.symbol ∧
        s.applyFile file =
          ((leading [] file.probes).foldl upsert (s.base file), .error (.repeated p.symbol)) := by
  obtain ⟨hfresh, hall | ⟨p, after, hsplit, hp⟩⟩ := leading_cases [] file.probes
  · rw [hall] at hfresh
    exact .inl ⟨fresh_nil_iff.mp hfresh, hall, applyProbes_of_fresh hfresh _⟩
  · refine .inr ⟨p, after, hsplit, fresh_nil_iff.mp hfresh, hp.resolve_left List.not_mem_nil, ?_⟩
    have happly := applyProbes_of_repeated hfresh hp after (s.base file)
    rwa [← hsplit] at happly

/-! ### Upserts -/

/-- The probe of a symbol. -/
def find? (s : ProbeSet) (symbol : String) : Option Spec :=
  s.probes.find? (·.symbol == symbol)

/-- The set is what these upserts make of the empty one. -/
structure Tells (s : ProbeSet) (made : List Spec) : Prop where
  symbols : s.probes.map Spec.symbol = (made.map Spec.symbol).eraseDups
  specs : ∀ symbol, s.find? symbol = latest? made symbol

variable {s : ProbeSet} {made : List Spec}

theorem tells_empty : empty.Tells [] :=
  ⟨rfl, fun _ => rfl⟩

theorem tells_builtin : builtin.Tells builtin.probes where
  symbols := by decide +kernel
  specs symbol := (latest?_of_nodup (by decide +kernel) symbol).symm

theorem Tells.upsert (h : s.Tells made) (p : Spec) : (s.upsert p).Tells (made ++ [p]) where
  symbols := by
    rw [List.map_append, List.map_singleton, eraseDups_concat, ← h.symbols]
    exact map_symbol_upsert p s.probes
  specs symbol := by
    rw [latest?_concat, ← h.specs]
    exact find?_upsert p s.probes symbol

theorem Tells.upsertAll (h : s.Tells made) (probes : List Spec) :
    (probes.foldl ProbeSet.upsert s).Tells (made ++ probes) := by
  induction probes generalizing s made with
  | nil => simpa using h
  | cons p rest ih => simpa using ih (h.upsert p)

theorem Tells.nodup (h : s.Tells made) : (s.probes.map Spec.symbol).Nodup := by
  rw [h.symbols]
  exact nodup_eraseDups _

theorem Tells.base (h : s.Tells made) (file : ConfigFile) :
    (s.base file).Tells (if file.replaceDefaults then [] else made) := by
  unfold ProbeSet.base
  split
  · exact tells_empty
  · exact h

theorem Tells.applyFile (h : s.Tells made) (file : ConfigFile) :
    (s.applyFile file).1.Tells
      ((if file.replaceDefaults then [] else made) ++ leading [] file.probes) := by
  obtain ⟨-, hall, happly⟩ | ⟨p, after, -, -, -, happly⟩ := s.applyFile_cases file
  · rw [happly, hall]
    exact (h.base file).upsertAll file.probes
  · rw [happly]
    exact (h.base file).upsertAll _

end ProbeSet

/-- What can be done to a set. -/
inductive Operation where
  | builtin
  | empty
  | upsert (probe : Spec)
  /-- A probe of the command line is read and upserted. -/
  | argument (text : String)
  | file (content : ConfigFile)

namespace Operation

/-- The set after an operation. What is no probe changes nothing, and a file that is refused
changes as much as it gets to. -/
def apply (s : ProbeSet) : Operation → ProbeSet
  | builtin => .builtin
  | empty => .empty
  | upsert probe => s.upsert probe
  | argument text =>
    match Spec.ofArgument? text with
    | .ok probe => s.upsert probe
    | .error _ => s
  | file content => (s.applyFile content).1

/-- The upserts since the set last started anew, after an operation. -/
def note (made : List Spec) : Operation → List Spec
  | builtin => ProbeSet.builtin.probes
  | empty => []
  | upsert probe => made ++ [probe]
  | argument text =>
    match Spec.ofArgument? text with
    | .ok probe => made ++ [probe]
    | .error _ => made
  | file content =>
    (if content.replaceDefaults then [] else made) ++ leading [] content.probes

theorem tells_apply {s : ProbeSet} {made : List Spec} (h : s.Tells made) (o : Operation) :
    (o.apply s).Tells (o.note made) := by
  cases o with
  | builtin => exact ProbeSet.tells_builtin
  | empty => exact ProbeSet.tells_empty
  | upsert probe => exact h.upsert probe
  | argument text =>
    simp only [apply, note]
    cases Spec.ofArgument? text with
    | ok probe => exact h.upsert probe
    | error _ => exact h
  | file content => exact h.applyFile content

/-- Operations one after another, on the empty set at first. -/
def perform (operations : List Operation) : ProbeSet :=
  operations.foldl apply .empty

/-- The upserts that they make since the set last started anew. -/
def upserts (operations : List Operation) : List Spec :=
  operations.foldl note []

theorem tells_foldl {s : ProbeSet} {made : List Spec} (h : s.Tells made)
    (operations : List Operation) :
    (operations.foldl apply s).Tells (operations.foldl note made) := by
  induction operations generalizing s made with
  | nil => exact h
  | cons o rest ih => exact ih (tells_apply h o)

end Operation

/-! ### Sets of a session -/

namespace ProbeSet

theorem addArguments_eq_ok_iff {s s' : ProbeSet} {arguments : List String} :
    s.addArguments arguments = .ok s' ↔
      ∃ parsed, arguments.mapM Spec.ofArgument? = .ok parsed ∧ s' = parsed.foldl upsert s := by
  induction arguments generalizing s with
  | nil => simp [addArguments, pure, Except.pure, eq_comm]
  | cons argument rest ih =>
    simp only [addArguments, List.mapM_cons, bind_eq_ok, ih]
    constructor
    · rintro ⟨p, hp, parsed, hparsed, rfl⟩
      exact ⟨p :: parsed, ⟨p, hp, parsed, hparsed, rfl⟩, rfl⟩
    · rintro ⟨_, ⟨p, hp, parsed, hparsed, ⟨⟩⟩, rfl⟩
      exact ⟨p, hp, parsed, hparsed, rfl⟩

/-- What a session is asked for: by its file, or by none. -/
def Asks (file : Option (String × Except Files.FileError (List UInt8))) (asked : ConfigFile) :
    Prop :=
  match file with
  | none => asked = ⟨false, []⟩
  | some (_, content) => ConfigFile.load content = .ok asked

theorem applyFile_eq_ok_iff {s s' : ProbeSet} {file : ConfigFile} :
    s.applyFile file = (s', .ok ()) ↔
      (file.probes.map Spec.symbol).Nodup ∧ s' = file.probes.foldl upsert (s.base file) := by
  obtain ⟨hnodup, -, happly⟩ | ⟨p, after, hsplit, -, hp, happly⟩ := s.applyFile_cases file
  · rw [happly]
    simp [hnodup, eq_comm]
  · have hrepeated : ¬(file.probes.map Spec.symbol).Nodup := by
      rw [hsplit, List.map_append, List.nodup_append]
      rintro ⟨-, -, hdisjoint⟩
      exact hdisjoint _ hp _ List.mem_cons_self rfl
    rw [happly]
    simp [hrepeated]

theorem assemble_eq_ok_iff {file : Option (String × Except Files.FileError (List UInt8))}
    {arguments : List String} {s : ProbeSet} :
    assemble file arguments = .ok s ↔
      ∃ asked parsed, Asks file asked ∧ (asked.probes.map Spec.symbol).Nodup ∧
        arguments.mapM Spec.ofArgument? = .ok parsed ∧
        s = (asked.probes ++ parsed).foldl upsert (builtin.base asked) := by
  simp only [List.foldl_append]
  cases file with
  | none =>
    change (builtin.addArguments arguments).mapError BuildError.argument = .ok s ↔ _
    rw [mapError_eq_ok, addArguments_eq_ok_iff]
    constructor
    · rintro ⟨parsed, hparsed, rfl⟩
      exact ⟨⟨false, []⟩, parsed, rfl, List.nodup_nil, hparsed, rfl⟩
    · rintro ⟨asked, parsed, rfl, -, hparsed, rfl⟩
      exact ⟨parsed, hparsed, rfl⟩
  | some given =>
    obtain ⟨path, content⟩ := given
    unfold assemble
    simp only [bind_eq_ok, mapError_eq_ok]
    constructor
    · rintro ⟨asked, hasked, hset⟩
      split at hset
      · rename_i applied happly
        obtain ⟨hnodup, rfl⟩ := applyFile_eq_ok_iff.mp happly
        obtain ⟨parsed, hparsed, rfl⟩ := addArguments_eq_ok_iff.mp (mapError_eq_ok.mp hset)
        exact ⟨asked, parsed, hasked, hnodup, hparsed, rfl⟩
      · cases hset
    · rintro ⟨asked, parsed, hasked, hnodup, hparsed, rfl⟩
      refine ⟨asked, hasked, ?_⟩
      rw [applyFile_eq_ok_iff.mpr ⟨hnodup, rfl⟩]
      exact mapError_eq_ok.mpr (addArguments_eq_ok_iff.mpr ⟨parsed, hparsed, rfl⟩)

end ProbeSet

/-- **A probe set has one probe for each symbol, and later sources win.** After any operations its
symbols are all different, in the order in which each first came since the set last started anew,
and each has the probe that came last. A file is applied if it names no symbol twice, and else its
entries before the first repeated one are. A session gets a set if its file and its arguments can be
read, no symbol comes twice in the file, and the set passes its check; and then the last argument
that names a symbol decides, or else the file, or else the built-in probes, if the file keeps
them. -/
theorem probes_keyed_by_symbol :
    (∀ operations : List Operation,
      let s := Operation.perform operations
      let made := Operation.upserts operations
      (s.probes.map Spec.symbol).Nodup ∧
        s.probes.map Spec.symbol = (made.map Spec.symbol).eraseDups ∧
        ∀ symbol, s.find? symbol = latest? made symbol) ∧
      (∀ (s : ProbeSet) (file : ConfigFile),
        ((file.probes.map Spec.symbol).Nodup ∧
            s.applyFile file = (file.probes.foldl ProbeSet.upsert (s.base file), .ok ())) ∨
          ∃ before p after, file.probes = before ++ p :: after ∧
            (before.map Spec.symbol).Nodup ∧ p.symbol ∈ before.map Spec.symbol ∧
            s.applyFile file =
              (before.foldl ProbeSet.upsert (s.base file), .error (.repeated p.symbol))) ∧
      ∀ file arguments,
        ((∃ s, ProbeSet.build file arguments = .ok s) ↔
          ∃ asked parsed, ProbeSet.Asks file asked ∧ (asked.probes.map Spec.symbol).Nodup ∧
            arguments.mapM Spec.ofArgument? = .ok parsed ∧
            ((asked.probes ++ parsed).foldl ProbeSet.upsert
              (ProbeSet.builtin.base asked)).check = .ok ()) ∧
        ∀ s, ProbeSet.build file arguments = .ok s →
          ∃ asked parsed, ProbeSet.Asks file asked ∧
            arguments.mapM Spec.ofArgument? = .ok parsed ∧
            ∀ symbol, s.find? symbol = (latest? parsed symbol).or
              ((asked.probes.find? (·.symbol == symbol)).or
                (if asked.replaceDefaults then none else ProbeSet.builtin.find? symbol)) := by
  refine ⟨fun operations => ?_, fun s file => ?_, fun file arguments => ⟨?_, fun s h => ?_⟩⟩
  · have htells := Operation.tells_foldl ProbeSet.tells_empty operations
    exact ⟨htells.nodup, htells.symbols, htells.specs⟩
  · obtain ⟨hnodup, -, happly⟩ | ⟨p, after, hsplit, hnodup, hp, happly⟩ := s.applyFile_cases file
    · exact .inl ⟨hnodup, happly⟩
    · exact .inr ⟨leading [] file.probes, p, after, hsplit, hnodup, hp, happly⟩
  · simp only [ProbeSet.build_eq_ok_iff, ProbeSet.assemble_eq_ok_iff]
    constructor
    · rintro ⟨s, ⟨asked, parsed, hasked, hnodup, hparsed, rfl⟩, hcheck⟩
      exact ⟨asked, parsed, hasked, hnodup, hparsed, hcheck⟩
    · rintro ⟨asked, parsed, hasked, hnodup, hparsed, hcheck⟩
      exact ⟨_, ⟨asked, parsed, hasked, hnodup, hparsed, rfl⟩, hcheck⟩
  · obtain ⟨hset, -⟩ := ProbeSet.build_eq_ok_iff.mp h
    obtain ⟨asked, parsed, hasked, hnodup, hparsed, rfl⟩ := ProbeSet.assemble_eq_ok_iff.mp hset
    refine ⟨asked, parsed, hasked, hparsed, fun symbol => ?_⟩
    have htells := (ProbeSet.tells_builtin.base asked).upsertAll (asked.probes ++ parsed)
    have hbuiltin := ProbeSet.tells_builtin.specs symbol
    rw [htells.specs, latest?_append, latest?_append, latest?_of_nodup hnodup, Option.or_assoc,
      hbuiltin]
    split <;> rfl

/-- A file that changes a built-in probe and adds one, which an argument changes again. -/
theorem probes_keyed_by_symbol_of_file :
    let text :=
      "\x7b\"probes\":[\x7b\"symbol\":\"ip_rcv\",\"sk_buff\":3\x7d,\x7b\"symbol\":\"f\"\x7d]\x7d"
    let file := some ("probes.json", .ok text.toUTF8.data.toList)
    ∃ s, ProbeSet.build file ["f:2"] = .ok s ∧
      ∃ asked parsed, ProbeSet.Asks file asked ∧
        ["f:2"].mapM Spec.ofArgument? = .ok parsed ∧
        ∀ symbol, s.find? symbol = (latest? parsed symbol).or
          ((asked.probes.find? (·.symbol == symbol)).or
            (if asked.replaceDefaults then none else ProbeSet.builtin.find? symbol)) := by
  intro text file
  have hread : ConfigFile.ofText text = .ok ⟨false, [.generic "ip_rcv" 3, .generic "f" 0]⟩ := by
    simp only [text]
    rfl
  have hasked : ProbeSet.Asks file ⟨false, [.generic "ip_rcv" 3, .generic "f" 0]⟩ := by
    change ConfigFile.load (.ok text.toUTF8.data.toList) = _
    rw [ConfigFile.load, fromUTF8?_toUTF8]
    simp only [hread]
  obtain ⟨s, hs⟩ := (probes_keyed_by_symbol.2.2 file ["f:2"]).1.mpr
    ⟨_, [.generic "f" 2], hasked, by decide +kernel, rfl, rfl⟩
  exact ⟨s, hs, (probes_keyed_by_symbol.2.2 file ["f:2"]).2 s hs⟩

end Lifeline.Probe
