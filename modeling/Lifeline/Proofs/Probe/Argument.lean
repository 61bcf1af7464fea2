import Lifeline.Probe.Spec
import Lifeline.Proofs.Text.Integer
import Mathlib.Data.List.TakeWhile

/-! Which arguments of the command line are probes.

The first colon divides an argument, so the name before it has none and there may be more behind it
(`Spec.ofArgument?_of_plain`, `Spec.ofArgument?_of_colon`). `arguments_read` says which arguments
are taken, for which probe, and what is told of the others. -/
namespace Lifeline.Probe.Spec

open Text

/-- An argument names a probe: it is a name, or a name, a colon and a position. -/
inductive Names : String → Spec → Prop where
  | plain {symbol : String} (hsome : symbol ≠ "") (hplain : ':' ∉ symbol.toList) :
      Names symbol (generic symbol 0)
  | placed {symbol text : String} {position : Int8} (hsome : symbol ≠ "")
      (hplain : ':' ∉ symbol.toList) (hposition : IsInteger 10 text.toList position.toInt) :
      Names (symbol ++ ":" ++ text) (generic symbol position)

theorem readPosition_eq_ok_iff {text : List Char} {position : Int8} :
    readPosition text = .ok position ↔ IsInteger 10 text position.toInt := by
  rw [readPosition, map_eq_ok]
  constructor
  · intro ⟨z, hread, hposition⟩
    obtain ⟨hz, hleast, hmost⟩ := (readInteger_eq_ok_iff (by decide) (by decide)).mp hread
    rwa [← hposition, Int8.toInt_ofInt_of_le (by omega) (by omega)]
  · intro hposition
    have hleast := position.le_toInt
    have hmost := position.toInt_lt
    refine ⟨position.toInt, ?_, Int8.ofInt_toInt position⟩
    exact (readInteger_eq_ok_iff (by decide) (by decide)).mpr ⟨hposition, by omega, by omega⟩

/-! ### The first colon -/

theorem ne_colon_of_plain {text : List Char} (h : ':' ∉ text) : ∀ c ∈ text, (c != ':') = true := by
  intro c hc
  rw [bne_iff_ne]
  exact fun heq => h (heq ▸ hc)

theorem exists_colon {argument : String} (h : ':' ∈ argument.toList) :
    ∃ symbol text : String, argument = symbol ++ ":" ++ text ∧ ':' ∉ symbol.toList := by
  obtain ⟨before, behind, hdivided, hplain⟩ := List.eq_append_cons_of_mem h
  refine ⟨.ofList before, .ofList behind, ?_, ?_⟩
  · apply String.toList_inj.mp
    rw [hdivided]
    simp
  · rwa [String.toList_ofList]

theorem ofArgument?_of_plain {argument : String} (h : ':' ∉ argument.toList) :
    ofArgument? argument =
      if argument = "" then .error (.emptySymbol argument) else .ok (generic argument 0) := by
  have hall := ne_colon_of_plain h
  have hbefore : argument.toList.takeWhile (· != ':') = argument.toList :=
    List.takeWhile_eq_self_iff.mpr hall
  have hbehind : argument.toList.dropWhile (· != ':') = [] :=
    List.dropWhile_eq_nil_iff.mpr hall
  simp only [ofArgument?, hbefore, hbehind, String.ofList_toList, String.toList_eq_nil_iff]

theorem ofArgument?_of_colon {symbol : String} (h : ':' ∉ symbol.toList) (text : String) :
    ofArgument? (symbol ++ ":" ++ text) =
      match readPosition text.toList with
      | .error reason => .error (.invalidPosition (symbol ++ ":" ++ text) reason)
      | .ok position =>
        if symbol = "" then .error (.emptySymbol (symbol ++ ":" ++ text))
        else .ok (generic symbol position) := by
  have hall := ne_colon_of_plain h
  have htext : (symbol ++ ":" ++ text).toList = symbol.toList ++ ':' :: text.toList := by simp
  have hbefore : (symbol ++ ":" ++ text).toList.takeWhile (· != ':') = symbol.toList := by
    rw [htext, List.takeWhile_append_of_pos hall]
    simp
  have hbehind : (symbol ++ ":" ++ text).toList.dropWhile (· != ':') = ':' :: text.toList := by
    rw [htext, List.dropWhile_append_of_pos hall]
    simp
  rw [ofArgument?, hbefore, hbehind]
  cases hposition : readPosition text.toList <;>
    simp only [hposition, String.ofList_toList, String.toList_eq_nil_iff]

/-! ### What is taken -/

theorem Names.ofArgument?_eq {argument : String} {p : Spec} (h : Names argument p) :
    ofArgument? argument = .ok p := by
  cases h with
  | plain hsome hplain => rw [ofArgument?_of_plain hplain, if_neg hsome]
  | placed hsome hplain hposition =>
    simp only [ofArgument?_of_colon hplain, readPosition_eq_ok_iff.mpr hposition, if_neg hsome]

/-- An argument names a probe, or its name is empty, or there is no position behind its colon. -/
theorem ofArgument?_cases (argument : String) :
    (∃ p, Names argument p) ∨
      ofArgument? argument = .error (.emptySymbol argument) ∨
      ∃ reason symbol text, argument = symbol ++ ":" ++ text ∧ ':' ∉ symbol.toList ∧
        readPosition text.toList = .error reason ∧
        ofArgument? argument = .error (.invalidPosition argument reason) := by
  by_cases hcolon : ':' ∈ argument.toList
  · obtain ⟨symbol, text, rfl, hplain⟩ := exists_colon hcolon
    have hread := ofArgument?_of_colon hplain text
    cases hposition : readPosition text.toList with
    | error reason =>
      rw [hposition] at hread
      exact .inr (.inr ⟨reason, symbol, text, rfl, hplain, hposition, hread⟩)
    | ok position =>
      rw [hposition] at hread
      by_cases hsome : symbol = ""
      · exact .inr (.inl (hread.trans (if_pos hsome)))
      · exact .inl ⟨_, .placed hsome hplain (readPosition_eq_ok_iff.mp hposition)⟩
  · by_cases hsome : argument = ""
    · exact .inr (.inl ((ofArgument?_of_plain hcolon).trans (if_pos hsome)))
    · exact .inl ⟨_, .plain hsome hcolon⟩

/-- An argument is taken for the probe that it names. -/
theorem ofArgument?_eq_ok_iff {argument : String} {p : Spec} :
    ofArgument? argument = .ok p ↔ Names argument p := by
  constructor
  · intro h
    obtain ⟨q, hq⟩ | hempty | ⟨reason, _, _, -, -, -, hinvalid⟩ := ofArgument?_cases argument
    · cases h.symm.trans hq.ofArgument?_eq
      exact hq
    · cases h.symm.trans hempty
    · cases h.symm.trans hinvalid
  · exact Names.ofArgument?_eq

/-- A bad position is told whatever the name is. -/
theorem ofArgument?_eq_invalidPosition_iff {argument : String} :
    (∃ reason, ofArgument? argument = .error (.invalidPosition argument reason)) ↔
      ∃ symbol text, argument = symbol ++ ":" ++ text ∧ ':' ∉ symbol.toList ∧
        ∀ position : Int8, ¬IsInteger 10 text.toList position.toInt := by
  constructor
  · intro ⟨reason, h⟩
    obtain ⟨p, hp⟩ | hempty | ⟨_, symbol, text, hdivided, hplain, hposition, -⟩ :=
      ofArgument?_cases argument
    · cases h.symm.trans hp.ofArgument?_eq
    · cases h.symm.trans hempty
    · refine ⟨symbol, text, hdivided, hplain, fun position hinteger => ?_⟩
      cases hposition.symm.trans (readPosition_eq_ok_iff.mpr hinteger)
  · intro ⟨symbol, text, hdivided, hplain, hnone⟩
    subst hdivided
    rw [ofArgument?_of_colon hplain]
    cases hposition : readPosition text.toList with
    | error reason => exact ⟨reason, rfl⟩
    | ok position => exact absurd (readPosition_eq_ok_iff.mp hposition) (hnone position)

/-- **An argument is a name, or a name and a position behind the first colon.** It is taken just if
it is one of these, for the probe that it names. All others are refused: where no position stands
behind the first colon for that, and otherwise for the empty name. So what is written as a name
without a colon, a colon and a decimal position is read back. -/
theorem arguments_read (argument : String) :
    (∀ p, ofArgument? argument = .ok p ↔ Names argument p) ∧
      ((∀ p, ¬Names argument p) ↔ ofArgument? argument = .error (.emptySymbol argument) ∨
        ∃ reason, ofArgument? argument = .error (.invalidPosition argument reason)) ∧
      ((∃ reason, ofArgument? argument = .error (.invalidPosition argument reason)) ↔
        ∃ symbol text, argument = symbol ++ ":" ++ text ∧ ':' ∉ symbol.toList ∧
          ∀ position : Int8, ¬IsInteger 10 text.toList position.toInt) ∧
      ∀ (symbol : String) (position : Int8), symbol ≠ "" → ':' ∉ symbol.toList →
        argument = symbol ++ ":" ++ toString position.toInt →
          ofArgument? argument = .ok (generic symbol position) := by
  refine ⟨fun p => ofArgument?_eq_ok_iff, ?_, ofArgument?_eq_invalidPosition_iff, ?_⟩
  · constructor
    · intro hnone
      obtain ⟨p, hp⟩ | hempty | ⟨reason, _, _, -, -, -, hinvalid⟩ := ofArgument?_cases argument
      · exact absurd hp (hnone p)
      · exact .inl hempty
      · exact .inr ⟨reason, hinvalid⟩
    · intro hrefused p hp
      obtain hempty | ⟨reason, hinvalid⟩ := hrefused
      · cases hempty.symm.trans hp.ofArgument?_eq
      · cases hinvalid.symm.trans hp.ofArgument?_eq
  · intro symbol position hsome hplain hdecimal
    rw [hdecimal]
    exact (Names.placed hsome hplain (isInteger_toString position.toInt)).ofArgument?_eq

/-- The least position in decimal, a position with a plus and zeros, and two colons. -/
theorem arguments_read_of_least :
    let argument := "ip_rcv:-128"
    "ip_rcv" ≠ "" ∧ ':' ∉ "ip_rcv".toList ∧
      argument = "ip_rcv" ++ ":" ++ toString (Int8.toInt (-128)) ∧
      ofArgument? argument = .ok (generic "ip_rcv" (-128)) ∧
      ofArgument? ("ip_rcv" ++ ":" ++ "+007") = .ok (generic "ip_rcv" 7) ∧
      ofArgument? "ip_rcv:1:1" =
        .error (.invalidPosition "ip_rcv:1:1" .invalidDigit) := by
  intro argument
  have hsome : "ip_rcv" ≠ "" := by decide
  have hplain : ':' ∉ "ip_rcv".toList := by decide
  have hdecimal : argument = "ip_rcv" ++ ":" ++ toString (Int8.toInt (-128)) := by decide +kernel
  have hseven : IsInteger 10 "+007".toList (Int8.toInt 7) := by
    refine ⟨['0', '0', '7'], 7, ⟨by decide, [0, 0, 7], ?_, rfl⟩, .inr (.inl ⟨rfl, rfl⟩)⟩
    exact .cons ⟨by decide, .inl rfl⟩ (.cons ⟨by decide, .inl rfl⟩ (.cons ⟨by decide, .inl rfl⟩ .nil))
  refine ⟨hsome, hplain, hdecimal, ?_, ?_, by decide +kernel⟩
  · exact (arguments_read argument).2.2.2 "ip_rcv" (-128) hsome hplain hdecimal
  · exact ((arguments_read _).1 _).mpr (.placed hsome hplain hseven)

end Lifeline.Probe.Spec
