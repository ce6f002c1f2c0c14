import VisualNovel.Json.Codec

/-!
# Layouts

A whole game is written in one of two layouts. The advanced one adds portraits
in three parts, an overlay for the background and one for the full screen.
-/

namespace VisualNovel

/-- Which fields the scenes of a game have. -/
inductive Layout where
  | simple
  | advanced
deriving DecidableEq, Repr

namespace Layout

/-- The layout with or without the advanced fields. -/
def ofFlag (advanced : Bool) : Layout := if advanced then .advanced else .simple

/-- Whether the layout has the advanced fields. -/
def isAdvanced : Layout → Bool
  | .simple => false
  | .advanced => true

@[simp] theorem isAdvanced_ofFlag (b : Bool) : (ofFlag b).isAdvanced = b := by
  cases b <;> rfl

instance : Json.Codec Layout where
  encode
    | .simple => .ofString "simple"
    | .advanced => .ofString "advanced"
  decode := Json.decodeName [("simple", .simple), ("advanced", .advanced)]

end Layout

end VisualNovel
