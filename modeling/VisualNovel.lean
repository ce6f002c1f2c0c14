import VisualNovel.Main
import VisualNovel.Proofs.Scenario.Field
import VisualNovel.Proofs.Scenario.Block
import VisualNovel.Proofs.Scenario.Grammar
import VisualNovel.Proofs.Scenario.Erasing
import VisualNovel.Proofs.Scenario.RoundTrip
import VisualNovel.Proofs.Scenario.Resaved
import VisualNovel.Proofs.Scenario.Widened
import VisualNovel.Proofs.Scenario.Concatenation
import VisualNovel.Proofs.Command
import VisualNovel.Proofs.Dialogue.NewMarkers
import VisualNovel.Proofs.Disk.ReadBack
import VisualNovel.Proofs.Folder.Calls
import VisualNovel.Proofs.Playback.Answer
import VisualNovel.Proofs.Playback.Coherence
import VisualNovel.Proofs.Playback.Refused
import VisualNovel.Proofs.Playback.Editing
import VisualNovel.Proofs.Playback.Assigned
import VisualNovel.Proofs.Playback.Transition
import VisualNovel.Proofs.Playback.Offered
import VisualNovel.Proofs.Playback.Portraits
import VisualNovel.Proofs.Playback.Revealing
import VisualNovel.Proofs.Playback.Log
import VisualNovel.Proofs.Playback.Resume
import VisualNovel.Proofs.Playback.Sounds
import VisualNovel.Proofs.Playback.Unloading
import VisualNovel.Proofs.Playback.Reports
import VisualNovel.Proofs.Playback.Indifference
import VisualNovel.Proofs.Presentation.Music
import VisualNovel.Proofs.Presentation.Sound
import VisualNovel.Proofs.Presentation.Screen
import VisualNovel.Proofs.Json.Exchanged
import VisualNovel.Proofs.SavedScenario
import VisualNovel.Proofs.Session.Autosave
import VisualNovel.Proofs.Session.Choices
import VisualNovel.Proofs.Language
import VisualNovel.Proofs.Folder.Creation
import VisualNovel.Proofs.Session.Ordinals
import VisualNovel.Proofs.Presence
