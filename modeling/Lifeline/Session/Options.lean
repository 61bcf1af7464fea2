import Lifeline.Text.Integer
import Lifeline.Text.Terminal

/-! The command line of a session.

Options are given by a long name or by a letter; a value follows its name behind `=` or
as the next argument, and its letter at once, behind `=` or as the next argument. The
first fault from the left decides (`Options.ofArguments`). -/
namespace Lifeline.Session

/-- What a session is asked to do. -/
structure Options where
  /-- Seconds to run; zero is without end. -/
  duration : Nat
  output : String
  format : String
  verbose : Bool
  /-- File of the kernel program. -/
  object : Option String
  /-- Seconds between two lines of progress. -/
  progressInterval : Nat
  trackingConfig : Option String
  /-- Further functions to probe, in order. -/
  probes : List String
  headOffset : UInt32
  /-- Seconds between two sweeps; zero is no sweeps. -/
  reapInterval : Nat
  /-- Seconds after which an unseen buffer is no longer tracked. -/
  reapMaxAge : Nat

def Options.default : Options where
  duration := 60
  output := "skbtrack-report.json"
  format := "json"
  verbose := false
  object := none
  progressInterval := 10
  trackingConfig := none
  probes := []
  headOffset := 0xC0
  reapInterval := 5
  reapMaxAge := 60

/-- The options that take a value. -/
inductive Setting where
  | duration
  | output
  | format
  | object
  | progressInterval
  | trackingConfig
  | probe
  | headOffset
  | reapInterval
  | reapMaxAge
  deriving DecidableEq, Repr

namespace Setting

def all : List Setting :=
  [ duration, output, format, object, progressInterval, trackingConfig, probe, headOffset,
    reapInterval, reapMaxAge ]

def longName : Setting → String
  | duration => "duration"
  | output => "output"
  | format => "format"
  | object => "ebpf-object"
  | progressInterval => "progress-interval"
  | trackingConfig => "tracking-config"
  | probe => "probe"
  | headOffset => "skb-head-offset"
  | reapInterval => "reap-interval"
  | reapMaxAge => "reap-max-age"

def letter? : Setting → Option Char
  | duration => some 'd'
  | output => some 'o'
  | format => some 'f'
  | probe => some 'p'
  | _ => none

/-- The option and its value, as usage messages name them. -/
def usage (s : Setting) : String :=
  let value := s.longName.map fun c => if c = '-' then '_' else c.toUpper
  s!"--{s.longName} <{value}>"

end Setting

/-- Why arguments are refused. -/
inductive UsageError where
  | invalidValue (setting : Setting) (value reason : String)
  | missingValue (setting : Setting)
  | repeated (setting : Setting)
  | repeatedFlag
  | unexpectedValue (value : String)
  | unexpected (argument : String)
  deriving DecidableEq, Repr

/-- What is said of arguments that are refused, in the pieces that are set off from each
other. -/
def UsageError.pieces (e : UsageError) : List String :=
  let advice := "\n\nFor more information, try '"
  let body :=
    match e with
    | invalidValue setting value reason =>
      [" invalid value '", value, "' for '", setting.usage, "': " ++ reason ++ advice]
    | missingValue setting =>
      [" a value is required for '", setting.usage, "' but none was supplied" ++ advice]
    | repeated setting =>
      [" the argument '", setting.usage, "' cannot be used multiple times" ++ advice]
    | repeatedFlag =>
      [" the argument '", "--verbose", "' cannot be used multiple times" ++ advice]
    | unexpectedValue value =>
      [ " unexpected value '", value, "' for '", "--verbose",
        "' found; no more were expected" ++ advice ]
    | unexpected argument => [" unexpected argument '", argument, "' found" ++ advice]
  "error:" :: body ++ ["--help", "'.\n"]

/-- What is said of arguments that are refused. No control sequence shows, and none goes on
behind its piece. -/
def UsageError.message (e : UsageError) : String :=
  String.join (e.pieces.map Text.plain)

/-- The first line of what is said. -/
def UsageError.headline (e : UsageError) : String :=
  Text.firstLine e.message

/-- Reads an offset: hexadecimal behind `0x`, decimal otherwise. -/
def readOffset (text : List Char) : Except Text.IntegerError UInt32 :=
  let number :=
    match text with
    | '0' :: 'x' :: digits => Text.readNatural 16 (UInt32.size - 1) digits
    | '0' :: 'X' :: digits => Text.readNatural 16 (UInt32.size - 1) digits
    | digits => Text.readNatural 10 (UInt32.size - 1) digits
  number.map UInt32.ofNat

/-- A number of seconds. -/
def readSeconds (setting : Setting) (value : String) : Except UsageError Nat :=
  (Text.readNatural 10 (UInt64.size - 1) value.toList).mapError fun reason =>
    .invalidValue setting value reason.message

/-- The settings that name a file, and so cannot be empty. -/
def Setting.isPath : Setting → Bool
  | output | object | trackingConfig => true
  | _ => false

/-- Options with one more value set. -/
def Options.set (o : Options) (setting : Setting) (value : String) : Except UsageError Options := do
  if setting.isPath ∧ value = "" then throw (.missingValue setting)
  match setting with
  | .duration => return { o with duration := ← readSeconds setting value }
  | .output => return { o with output := value }
  | .format => return { o with format := value }
  | .object => return { o with object := some value }
  | .progressInterval => return { o with progressInterval := ← readSeconds setting value }
  | .trackingConfig => return { o with trackingConfig := some value }
  | .probe => return { o with probes := o.probes ++ [value] }
  | .headOffset =>
    match readOffset value.toList with
    | .ok offset => return { o with headOffset := offset }
    | .error reason =>
      throw (.invalidValue setting value s!"invalid offset '{value}': {reason.message}")
  | .reapInterval => return { o with reapInterval := ← readSeconds setting value }
  | .reapMaxAge => return { o with reapMaxAge := ← readSeconds setting value }

/-- Options while arguments are read, and the settings that were given. -/
structure Options.Draft where
  options : Options
  given : List Setting

/-- Sets a value; only probes may be given more than once. -/
def Options.Draft.set (d : Options.Draft) (setting : Setting) (value : String) :
    Except UsageError Options.Draft := do
  if setting ∈ d.given ∧ setting ≠ .probe then throw (.repeated setting)
  return ⟨← d.options.set setting value, setting :: d.given⟩

def Options.Draft.setVerbose (d : Options.Draft) : Except UsageError Options.Draft :=
  if d.options.verbose then .error .repeatedFlag
  else .ok { d with options := { d.options with verbose := true } }

/-- What an argument asks for: settings with their values, or a setting whose value is the
next argument. -/
inductive Argument where
  | flag
  | valued (setting : Setting) (value : String)
  | pending (setting : Setting)

/-- A long option, its dashes left out. -/
def readLong (name : List Char) : Except UsageError Argument :=
  let shown := "--" ++ String.ofList (name.takeWhile (· != '='))
  let word := String.ofList (name.takeWhile (· != '='))
  let value := (name.dropWhile (· != '=')).drop 1
  let hasValue := '=' ∈ name
  if word = "verbose" then
    if hasValue then .error (.unexpectedValue (String.ofList value)) else .ok .flag
  else
    match Setting.all.find? (·.longName == word) with
    | none => .error (.unexpected shown)
    | some setting =>
      if hasValue then .ok (.valued setting (String.ofList value)) else .ok (.pending setting)

/-- A cluster of letters behind a dash: flags, and at most one setting at its end. -/
def readLetters (d : Options.Draft) :
    List Char → Except UsageError (Options.Draft × Option Setting)
  | [] => .ok (d, none)
  | c :: rest =>
    if c = 'v' then do
      let d ← d.setVerbose
      readLetters d rest
    else
      match Setting.all.find? (·.letter? == some c) with
      | none => .error (.unexpected ("-" ++ String.singleton c))
      | some setting =>
        match rest with
        | [] => .ok (d, some setting)
        | '=' :: value => do return (← d.set setting (String.ofList value), none)
        | value => do return (← d.set setting (String.ofList value), none)

/-- The fault of an option that stands where a value is due: the value is missing, unless
the option is none at all. -/
def misplaced (d : Options.Draft) (setting : Setting) (argument : List Char) : UsageError :=
  let fault : Except UsageError Unit :=
    match argument with
    | '-' :: '-' :: [] => .ok ()
    | '-' :: '-' :: name => (readLong name).map fun _ => ()
    | '-' :: c :: _ => (readLetters d [c]).map fun _ => ()
    | _ => .ok ()
  match fault with
  | .error (.unexpected argument) => .unexpected argument
  | _ => .missingValue setting

/-- Reads arguments in order; a setting may wait for its value. -/
def readArguments (d : Options.Draft) :
    Option Setting → List String → Except UsageError Options.Draft
  | none, [] => .ok d
  | some setting, [] => .error (.missingValue setting)
  | waiting, argument :: rest => do
    match waiting, argument.toList with
    | some setting, '-' :: c :: letters => throw (misplaced d setting ('-' :: c :: letters))
    | some setting, _ => readArguments (← d.set setting argument) none rest
    | none, ['-', '-'] =>
      match rest with
      | [] => return d
      | argument :: _ => throw (.unexpected argument)
    | none, '-' :: '-' :: name =>
      match ← readLong name with
      | .flag => readArguments (← d.setVerbose) none rest
      | .valued setting value => readArguments (← d.set setting value) none rest
      | .pending setting => readArguments d (some setting) rest
    | none, '-' :: c :: letters =>
      let (d, waiting) ← readLetters d (c :: letters)
      readArguments d waiting rest
    | none, _ => throw (.unexpected argument)

/-- The options that the arguments ask for. -/
def Options.ofArguments (arguments : List String) : Except UsageError Options :=
  (readArguments ⟨.default, []⟩ none arguments).map (·.options)

end Lifeline.Session
