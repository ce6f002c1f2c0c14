/-!
# The intro

Before the game begins the name of its developer fades in and out again. Both
movements approach the same target; the way out begins when the way in is almost
over, and a player who skips makes everything faster.
-/

namespace VisualNovel

/-- How far the name has faded in and out, and how fast. -/
structure Intro where
  rise : Float32
  fall : Float32
  factor : Float32

namespace Intro

/-- What both movements approach. -/
def target : Float32 := 3.0

/-- Where the way in has to be for the way out to begin. -/
def fallStart : Float32 := 2.6

/-- Where the way out has to be for the intro to end. -/
def endThreshold : Float32 := 2.8

/-- How much faster everything is after a skip. -/
def skipFactor : Float32 := 8.0

/-- How much slower the way in is. -/
def riseLag : Float32 := 0.6

/-- The intro before it begins. -/
def start : Intro := ⟨0, 0, 1⟩

/-- A part of the way from one value to another. -/
def approach (x goal t : Float32) : Float32 := x + (goal - x) * t

/-- Lets some time pass. -/
def update (i : Intro) (dt : Float32) : Intro :=
  let rise := approach i.rise target (dt * (i.factor - riseLag))
  { i with
    rise
    fall := if rise > fallStart then approach i.fall target (dt * i.factor) else i.fall }

/-- Makes everything faster. -/
def skip (i : Intro) : Intro := { i with factor := skipFactor }

/-- Whether the player has skipped. -/
def isSkipped (i : Intro) : Bool := i.factor > 1

/-- A value brought between zero and one. -/
def clampUnit (x : Float32) : Float32 := if x < 0 then 0 else if x > 1 then 1 else x

/-- How visible the name is. -/
def alpha (i : Intro) : Float32 := clampUnit (i.rise - i.fall)

/-- Whether the intro is over. -/
def isFinished (i : Intro) : Bool := i.fall > endThreshold

end Intro

end VisualNovel
