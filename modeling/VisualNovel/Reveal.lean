/-!
# Revealing text

A text appears character by character. Time charges a gauge, and whenever the
gauge is over its threshold it is emptied and one more character appears.
-/

namespace VisualNovel

/-- How far a text has appeared. -/
structure Reveal where
  gauge : Float32
  revealed : Nat

namespace Reveal

/-- Nothing has appeared. -/
def start : Reveal := ⟨0, 0⟩

/-- What the gauge has to exceed. -/
def threshold : Float32 := 0.01

/-- The gauge after some time; a paused gauge keeps its charge. -/
def charge (gauge dt : Float32) (speed : UInt32) (paused : Bool) : Float32 :=
  if paused then gauge
  else gauge + (1 - gauge) * (dt * (speed.toFloat32 / 100))

/-- One frame of time for a text. -/
def step (r : Reveal) (text : String) (dt : Float32) (speed : UInt32) (paused : Bool) : Reveal :=
  let gauge := charge r.gauge dt speed paused
  if gauge > threshold then
    ⟨0, if r.revealed < text.length then r.revealed + 1 else r.revealed⟩
  else ⟨gauge, r.revealed⟩

/-- The part of a text that has appeared. -/
def visible (r : Reveal) (text : String) : String :=
  String.ofList (text.toList.take r.revealed)

/-- Whether the whole text has appeared. -/
def isComplete (r : Reveal) (text : String) : Bool :=
  text.length ≤ r.revealed

end Reveal

end VisualNovel
