import Lifeline.Json.Token

/-! JSON values as far as they could be read.

An outline is the tree of a text's tokens, built from the left one token at a time with
the containers part way through held in a list of frames (`Parse.step`). Where the tokens
stop making sense the tree is cut: the value that was due is `broken`, and the containers
around it stay open. A reader of outlines therefore meets faults in the order of the text:
whatever stands before the fault is there to be judged first. -/
namespace Lifeline.Json

/-- The name of a member as it is spelled; it is not whole where the text breaks in it. -/
structure Key where
  raw : List Char
  isWhole : Bool
  deriving DecidableEq, Repr

/-- A value as far as it could be read. -/
inductive Outline where
  | null
  | bool (value : Bool)
  | number (numeral : Numeral)
  | text (raw : List Char)
  | array (items : List Outline) (isClosed : Bool)
  | object (members : List (Key × Outline)) (isClosed : Bool)
  | broken

/-- A whole text: its value, and whether anything but white space follows it. -/
structure Document where
  value : Outline
  hasMore : Bool

namespace Parse

/-- A container part way through, what it holds so far being listed backwards. -/
inductive Frame where
  | items (held : List Outline)
  | members (held : List (Key × Outline)) (key : Key)

/-- What may come next. -/
inductive Due where
  | value
  /-- The first item of an array, or its end. -/
  | itemOrEnd
  /-- A comma or the end of the container. -/
  | commaOrEnd
  /-- The first name in an object, or its end. -/
  | keyOrEnd
  /-- A further name in an object. -/
  | key
  | colon

/-- A text part way through, or a whole value and whether something follows it. -/
inductive State where
  | inside (due : Due) (frames : List Frame)
  | ended (value : Outline) (hasMore : Bool)

/-- The start of a text. -/
def State.start : State := .inside .value []

/-- Adds a finished value to the container around it. -/
def deliver (value : Outline) : List Frame → State
  | [] => .ended value false
  | .items held :: frames => .inside .commaOrEnd (.items (value :: held) :: frames)
  | .members held key :: frames =>
    .inside .commaOrEnd (.members ((key, value) :: held) key :: frames)

/-- The containers around a value, left open behind it. -/
def leaveOpen (value : Outline) : List Frame → Outline
  | [] => value
  | .items held :: frames => leaveOpen (.array (value :: held).reverse false) frames
  | .members held key :: frames =>
    leaveOpen (.object ((key, value) :: held).reverse false) frames

/-- The outline of a text that breaks where `due` is due. -/
def cut (due : Due) (frames : List Frame) : Outline :=
  match due, frames with
  | .commaOrEnd, .items held :: frames => leaveOpen (.array held.reverse false) frames
  | .commaOrEnd, .members held _ :: frames => leaveOpen (.object held.reverse false) frames
  | .itemOrEnd, frames => leaveOpen (.array [] false) frames
  | .keyOrEnd, frames => leaveOpen (.object [] false) frames
  | .key, .members held _ :: frames => leaveOpen (.object held.reverse false) frames
  | _, frames => leaveOpen .broken frames

/-- The name that a token is; nothing is known yet of its value. -/
def takeKey? (held : List (Key × Outline)) (frames : List Frame) : Token → Option State
  | .text raw => some (.inside .colon (.members held ⟨raw, true⟩ :: frames))
  | .torn raw =>
    some (.ended (leaveOpen .broken (.members held ⟨raw, false⟩ :: frames)) true)
  | _ => none

/-- A token comes where a value is due. -/
def takeValue (token : Token) (due : Due) (frames : List Frame) : State :=
  match token with
  | .null => deliver .null frames
  | .bool value => deliver (.bool value) frames
  | .number numeral => deliver (.number numeral) frames
  | .text raw => deliver (.text raw) frames
  | .openBracket => .inside .itemOrEnd frames
  | .openBrace => .inside .keyOrEnd frames
  | _ => .ended (cut due frames) true

/-- One more token. -/
def step : State → Token → State
  | .ended value _, _ => .ended value true
  | .inside .value frames, token => takeValue token .value frames
  | .inside .itemOrEnd frames, token =>
    match token with
    | .closeBracket => deliver (.array [] true) frames
    | token => takeValue token .value (.items [] :: frames)
  | .inside .keyOrEnd frames, token =>
    match token with
    | .closeBrace => deliver (.object [] true) frames
    | token => (takeKey? [] frames token).getD (.ended (cut .keyOrEnd frames) true)
  | .inside .key (.members held key :: frames), token =>
    (takeKey? held frames token).getD (.ended (cut .key (.members held key :: frames)) true)
  | .inside .colon frames, token =>
    match token with
    | .colon => .inside .value frames
    | _ => .ended (cut .colon frames) true
  | .inside .commaOrEnd (.items held :: frames), token =>
    match token with
    | .comma => .inside .value (.items held :: frames)
    | .closeBracket => deliver (.array held.reverse true) frames
    | _ => .ended (cut .commaOrEnd (.items held :: frames)) true
  | .inside .commaOrEnd (.members held key :: frames), token =>
    match token with
    | .comma => .inside .key (.members held key :: frames)
    | .closeBrace => deliver (.object held.reverse true) frames
    | _ => .ended (cut .commaOrEnd (.members held key :: frames)) true
  | .inside due frames, _ => .ended (cut due frames) true

/-- The document of a text that ends here. -/
def State.finish : State → Document
  | .inside due frames => ⟨cut due frames, true⟩
  | .ended value hasMore => ⟨value, hasMore⟩

end Parse

/-- Reads a text. -/
def Document.ofText (text : List Char) : Document :=
  ((tokens text).foldl Parse.step .start).finish

end Lifeline.Json
