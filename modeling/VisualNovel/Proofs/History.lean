import Mathlib.Data.List.DropRight
import VisualNovel.History
import VisualNovel.Json.Reader

/-!
# Pushes of a history

A push appends an event and keeps as many of the latest as the limit allows. What leaves early
would leave in the end as well, so that a run of pushes keeps the last of all the events, those
that were there and those that came, however many there were and whatever the limit is.

A history tells what was said and where the game went, and when; the moments left out, its
events are remarks. A history which grew by pushes has the last remarks of all that were pushed.
-/

namespace VisualNovel

/-- At most so many of the last elements are taken as there are. -/
theorem length_rtake {α : Type} (l : List α) (n : Nat) : (l.rtake n).length = min n l.length := by
  rw [List.rtake, List.length_drop]
  omega

/-- What is left out early is left out in the end. -/
theorem rtake_append_rtake {α : Type} (l r : List α) (n : Nat) :
    (l.rtake n ++ r).rtake n = (l ++ r).rtake n := by
  simp only [List.rtake_eq_reverse_take_reverse, List.reverse_append, List.reverse_reverse,
    List.take_append, List.take_take, List.length_reverse]
  have hmin : min (n - r.length) n = n - r.length := by omega
  rw [hmin]

/-- What an event tells, whenever it happened. -/
inductive Remark where
  | said (speaker content : String)
  | went (scenario : String)
deriving DecidableEq, Repr

namespace Event

/-- An event without its moment. -/
def remark : Event → Remark
  | .dialogue speaker content _ => .said speaker content
  | .scenarioSwitch scenario _ => .went scenario

/-- What the player reads when looking back on events: who said what, and nothing where the game
went on to another scenario. -/
def spoken : List Event → List String
  | [] => []
  | .dialogue speaker content _ :: events => (speaker ++ ": " ++ content) :: spoken events
  | .scenarioSwitch _ _ :: events => spoken events

/-- The lines that a history shows are those that were spoken. -/
theorem filterMap_displayLine? (events : List Event) :
    events.filterMap displayLine? = spoken events := by
  induction events with
  | nil => rfl
  | cons event events ih =>
    cases event with
    | dialogue speaker content time => exact congrArg (List.cons _) ih
    | scenarioSwitch scenario time => exact ih

/-- Exactly the dialogues have a line. -/
theorem isSome_displayLine? (event : Event) : event.displayLine?.isSome = event.isDialogue := by
  cases event <;> rfl

end Event

namespace History

/-- A history shows what was spoken in its events. -/
theorem dialogueLines_eq (h : History) : h.dialogueLines = Event.spoken h.events :=
  Event.filterMap_displayLine? h.events

/-- A history counts what was spoken in its events. -/
theorem dialogueCount_eq (h : History) : h.dialogueCount = (Event.spoken h.events).length := by
  rw [← Event.filterMap_displayLine?, List.length_filterMap_eq_countP]
  simp only [Event.isSome_displayLine?, dialogueCount]

/-- The last events are kept, as many as the limit says. -/
theorem events_push (h : History) (event : Event) :
    (h.push event).events = (h.events ++ [event]).rtake h.limit := rfl

/-- An event does not change the limit. -/
theorem limit_push (h : History) (event : Event) : (h.push event).limit = h.limit := rfl

/-- What a history tells. -/
def remarks (h : History) : List Remark := h.events.map Event.remark

/-- The last remarks are kept, as many as the limit says. -/
theorem remarks_push (h : History) (event : Event) :
    (h.push event).remarks = (h.remarks ++ [event.remark]).rtake h.limit := by
  simp only [remarks, events_push, List.rtake, List.map_drop, List.map_append, List.length_append,
    List.length_map, List.map_cons, List.map_nil, List.length_cons, List.length_nil]

/-- A history that has the last remarks of a log has them after a push as well. -/
theorem remarks_push_of_eq {h : History} {log : List Remark}
    (hlog : h.remarks = log.rtake h.limit) (event : Event) :
    (h.push event).remarks = (log ++ [event.remark]).rtake h.limit := by
  rw [remarks_push, hlog, rtake_append_rtake]

/-- Pushes events one after the other. -/
def pushAll (h : History) (events : List Event) : History := events.foldl push h

/-- The first event is pushed before the others. -/
theorem pushAll_cons (h : History) (event : Event) (events : List Event) :
    h.pushAll (event :: events) = (h.push event).pushAll events := rfl

/-- Events do not change the limit. -/
theorem limit_pushAll (h : History) (events : List Event) : (h.pushAll events).limit = h.limit := by
  induction events generalizing h with
  | nil => rfl
  | cons event events ih => rw [pushAll_cons, ih, limit_push]

/-- It is as if the surplus left once, at the end of the run. -/
theorem events_pushAll_cons (h : History) (event : Event) (events : List Event) :
    (h.pushAll (event :: events)).events = (h.events ++ event :: events).rtake h.limit := by
  -- The first push may already cut a history that began with too many events.
  induction events generalizing h event with
  | nil => exact events_push h event
  | cons next events ih =>
    calc (h.pushAll (event :: next :: events)).events
        = ((h.push event).events ++ next :: events).rtake h.limit := by
          rw [pushAll_cons, ih, limit_push]
      _ = ((h.events ++ [event]).rtake h.limit ++ next :: events).rtake h.limit := by
          rw [events_push]
      _ = (h.events ++ event :: next :: events).rtake h.limit := by
          rw [rtake_append_rtake, List.append_assoc, List.singleton_append]

/-- Once something was pushed, a history has the last of the old events and those that came, as
many as its limit allows and all of them if they are fewer. Its lines and their number are
those of these events, and its limit stays. -/
theorem latest_pushAll (h : History) {events : List Event} (hpushed : events ≠ []) :
    (h.pushAll events).events = (h.events ++ events).rtake h.limit ∧
      (h.pushAll events).events.length = min h.limit (h.events.length + events.length) ∧
      (h.pushAll events).dialogueLines = Event.spoken ((h.events ++ events).rtake h.limit) ∧
      (h.pushAll events).dialogueCount =
        (Event.spoken ((h.events ++ events).rtake h.limit)).length ∧
      (h.pushAll events).limit = h.limit := by
  obtain ⟨event, later, rfl⟩ := List.exists_cons_of_ne_nil hpushed
  have hevents := events_pushAll_cons h event later
  refine ⟨hevents, ?_, ?_, ?_, limit_pushAll h _⟩
  · rw [hevents, length_rtake, List.length_append]
  · rw [dialogueLines_eq, hevents]
  · rw [dialogueCount_eq, hevents]

/-- The text of a history that has three events, though it is to keep two. -/
def crowdedText : String :=
  "[[\x7b\"Dialogue\":[\"Ann\",\"Hello\",7]\x7d,\x7b\"ScenarioSwitch\":[\"b.sc\",8]\x7d," ++
    "\x7b\"Dialogue\":[\"Ben\",\"Hi\",9]\x7d],2]"

/-- What this text says. -/
def crowded : History :=
  ⟨[.dialogue "Ann" "Hello" 7, .scenarioSwitch "b.sc" 8, .dialogue "Ben" "Hi" 9], 2⟩

/-- What is said after it. -/
def farewell : Event := .dialogue "Ann" "Bye" 10

/-- One push cuts the history to its limit, and to nothing if the limit was set to zero. -/
theorem latest_pushAll_crowded :
    (Json.parse crowdedText).bind Json.decode = some crowded ∧
      crowded.limit < crowded.events.length ∧ [farewell] ≠ [] ∧
      (crowded.pushAll [farewell]).events = [.dialogue "Ben" "Hi" 9, farewell] ∧
      (crowded.pushAll [farewell]).dialogueLines = ["Ben: Hi", "Ann: Bye"] ∧
      (crowded.pushAll [farewell]).dialogueCount = 2 ∧
      ((crowded.withLimit 0).pushAll [farewell]).events = [] := by
  have hpushed : [farewell] ≠ [] := List.cons_ne_nil _ _
  obtain ⟨hevents, -, hlines, hcount, -⟩ := latest_pushAll crowded hpushed
  obtain ⟨hnone, -⟩ := latest_pushAll (crowded.withLimit 0) hpushed
  refine ⟨by decide +kernel, by decide, hpushed, hevents, ?_, ?_, hnone⟩
  · exact hlines.trans (by decide +kernel)
  · exact hcount.trans rfl

end History

end VisualNovel
