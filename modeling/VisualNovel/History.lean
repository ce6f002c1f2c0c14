import VisualNovel.Json.Codec

/-!
# History

The log of what was said and where the game went. It keeps the most recent
events up to a limit, and the oldest ones leave first. Moments are counted in
whole seconds.
-/

namespace VisualNovel

/-- Something worth remembering. -/
inductive Event where
  | dialogue (speaker content : String) (time : Nat)
  | scenarioSwitch (scenario : String) (time : Nat)
deriving DecidableEq, Repr

namespace Event

/-- When it happened. -/
def time : Event → Nat
  | .dialogue _ _ t => t
  | .scenarioSwitch _ t => t

/-- The line that stands for a dialogue when the player looks back. -/
def displayLine? : Event → Option String
  | .dialogue speaker content _ => some (speaker ++ ": " ++ content)
  | .scenarioSwitch _ _ => none

/-- Whether something was said. -/
def isDialogue : Event → Bool
  | .dialogue _ _ _ => true
  | .scenarioSwitch _ _ => false

/-- The fields of a dialogue. -/
def decodeDialogue (v : Json.Value) : Option Event := do
  let fs ← Json.Fields.of ["speaker", "content", "timestamp"] v
  return .dialogue (← fs.required "speaker") (← fs.required "content") (← fs.required "timestamp")

/-- The fields of a switch. -/
def decodeSwitch (v : Json.Value) : Option Event := do
  let fs ← Json.Fields.of ["scenario", "timestamp"] v
  return .scenarioSwitch (← fs.required "scenario") (← fs.required "timestamp")

instance : Json.Codec Event where
  encode
    | .dialogue speaker content time => .variant "Dialogue" (.record
        [("speaker", Json.encode speaker), ("content", Json.encode content),
          ("timestamp", Json.encode time)])
    | .scenarioSwitch scenario time => .variant "ScenarioSwitch" (.record
        [("scenario", Json.encode scenario), ("timestamp", Json.encode time)])
  decode v := do
    match ← v.variant? with
    | ("Dialogue", some v) => decodeDialogue v
    | ("ScenarioSwitch", some v) => decodeSwitch v
    | _ => none

end Event

/-- The most recent events and how many of them are kept. -/
structure History where
  events : List Event
  limit : Nat
deriving DecidableEq, Repr

namespace History

/-- How many events a new history keeps. -/
def defaultLimit : Nat := 1000

/-- A history without events. -/
def empty : History := ⟨[], defaultLimit⟩

/-- Changes the limit; surplus events leave with the next one that arrives. -/
def withLimit (h : History) (limit : Nat) : History := { h with limit }

/-- Adds an event and lets the oldest ones go while there are too many. -/
def push (h : History) (event : Event) : History :=
  let events := h.events ++ [event]
  { h with events := events.drop (events.length - h.limit) }

/-- Forgets all events. -/
def clear (h : History) : History := { h with events := [] }

/-- The number of dialogues. -/
def dialogueCount (h : History) : Nat := h.events.countP Event.isDialogue

/-- The lines that stand for the dialogues. -/
def dialogueLines (h : History) : List String := h.events.filterMap Event.displayLine?

/-- A push leaves no more events than the limit. -/
theorem length_push_le (h : History) (event : Event) :
    (h.push event).events.length ≤ h.limit := by
  simp only [push, List.length_drop]
  omega

instance : Json.Codec History where
  encode h := .record [("events", Json.encode h.events), ("max_events", Json.encode h.limit)]
  decode v := do
    let fs ← Json.Fields.of ["events", "max_events"] v
    return { events := ← fs.required "events", limit := ← fs.required "max_events" }

end History

end VisualNovel
