import Lifeline.Report.Basic
import Lifeline.Text.Align

/-! Reports for people to read.

First what the session came to, then a block for every buffer with a line for each of
its observations, told by their distance from the first sight. -/
namespace Lifeline.Report

/-- Lines below their heading; no heading without lines. -/
def listing (heading : String) (lines : List String) : List String :=
  if lines = [] then [] else heading :: lines

/-- A drop reason and how often it was met. -/
def dropLine (drop : UInt32 × UInt64) : String :=
  "  reason " ++ Text.padRight 6 (toString drop.1.toNat) ++ " " ++ toString drop.2.toNat

/-- A counter and its value. -/
def counterLine (counter : String × UInt64) : String :=
  "  " ++ Text.padRight 22 counter.1 ++ " " ++ toString counter.2.toNat

/-- Time from `since` to `now`, nothing if `now` comes first. -/
def elapsed (since now : Nanos) : Nanos :=
  if since ≤ now then now - since else 0

/-- An observation: its distance from the first sight, its function and its buffer. -/
def Entry.line (createdAt : Nanos) (e : Entry) : String :=
  let reason :=
    match e.dropReason with
    | some reason => " drop_reason " ++ toString reason.toNat
    | none => ""
  "  +" ++ Text.padLeft 12 (toString (elapsed createdAt e.timestamp).toNat) ++ "ns  " ++
    Text.padRight 24 e.function ++ " skb " ++ e.skb ++ reason

/-- A lifetime: an empty line, who the buffer is, and its observations. -/
def Timeline.lines (t : Timeline) : List String :=
  "" :: ("skb [" ++ t.origHead ++ " @ " ++ toString t.createdAt.toNat ++ "]" ++
    (if t.freed then " freed" else "")) :: t.events.map (Entry.line t.createdAt)

/-- What a session came to. -/
def Summary.lines (s : Summary) : List String :=
  ("events: " ++ toString s.totalEvents.toNat ++ " (" ++ toString s.untrackedEvents.toNat ++
    " untracked, " ++ toString s.invalidEvents.toNat ++ " invalid)") ::
  ("skbs: " ++ toString s.trackedSkbs.toNat ++ " (" ++ toString s.completedSkbs.toNat ++
    " freed), reaped entries: " ++ toString s.reapedEntries.toNat) ::
  (listing "drops:" (s.dropsByReason.toList.map dropLine) ++
    listing "kernel counters:" (s.kernelCounters.toList.map counterLine))

def lines (r : Report) : List String :=
  ("skb tracking report (" ++ r.timestamp ++ ")") ::
  ("duration: " ++ toString r.durationSeconds.toNat ++ "s") ::
  (r.summary.lines ++ r.skbs.flatMap Timeline.lines)

/-- The text of a report, every line ended. -/
def text (r : Report) : String :=
  String.join (r.lines.map (· ++ "\n"))

end Lifeline.Report
