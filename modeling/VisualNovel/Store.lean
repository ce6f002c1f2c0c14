import VisualNovel.Table
import VisualNovel.Scenario.Reader

/-!
# The store of scenarios

The store knows all scenarios of a game and loads the scenes and textures of one
when they are first needed. What cannot be read is no error: the scenario goes on
without it and the report of the load says why. The source is asked through a
monad, so that its answers may differ from question to question.
-/

namespace VisualNovel

/-- A scenario as it was found: its file name and where its parts lie. -/
structure Descriptor where
  fileName : String
  filePath : String
  texturesDir : String
  soundsDir : String
deriving DecidableEq, Repr

/-- The file name up to its last point. -/
def Descriptor.stem (d : Descriptor) : String :=
  match Text.cutAtLast '.' d.fileName.toList with
  | some (stem, _) => String.ofList stem
  | none => d.fileName

/-- A scenario as it is listed. Its mark says that it counts as loaded, although nothing of
it has been read yet. -/
structure Listing where
  descriptor : Descriptor
  marked : Bool
deriving DecidableEq, Repr

/-- The listing of a scenario that is still to be loaded. -/
def Listing.found (descriptor : Descriptor) : Listing := ⟨descriptor, false⟩

/-- Where scenes and textures come from; a failure is told by its text. -/
structure Source (m : Type → Type) (τ : Type) where
  text : Descriptor → m (Except String String)
  textures : Descriptor → m (Except String (List (String × τ)))

/-- What a load came to. -/
structure LoadReport where
  performed : Bool
  scenes : Nat
  textures : Nat
  skipped : Nat
  warnings : List String
deriving DecidableEq, Repr

/-- The report of a load that had nothing to do. -/
def LoadReport.idle : LoadReport := ⟨false, 0, 0, 0, []⟩

/-- A scenario of the store. -/
structure Entry (τ : Type) where
  descriptor : Descriptor
  loaded : Bool
  scenes : List Scene
  textures : Registry τ

namespace Entry

variable {τ : Type}

/-- A scenario of which nothing has been read. -/
def ofListing (l : Listing) : Entry τ := ⟨l.descriptor, l.marked, [], .empty⟩

/-- A scenario before it is loaded. -/
def ofDescriptor (descriptor : Descriptor) : Entry τ := .ofListing (.found descriptor)

/-- The scenario without what was loaded. -/
def unload (e : Entry τ) : Entry τ := .ofDescriptor e.descriptor

/-- Takes the textures that the source gave, with a warning if it gave none. -/
def takeTextures (e : Entry τ) : Except String (List (String × τ)) → Entry τ × List String
  | .ok textures => ({ e with textures := .ofList textures }, [])
  | .error reason => (e, ["纹理加载失败: " ++ reason])

/-- Takes the text that the source gave: the entry, the number of skipped lines, and a
warning if it gave none. -/
def takeText (layout : Layout) (e : Entry τ) : Except String String → Entry τ × Nat × List String
  | .ok text =>
    let reading := Scenario.read layout text
    ({ e with scenes := reading.scenes }, reading.skipped.length, [])
  | .error reason => (e, 0, ["剧本读取失败: " ++ reason])

/-- Takes both answers of the source. -/
def take (layout : Layout) (e : Entry τ) (textures : Except String (List (String × τ)))
    (text : Except String String) : Entry τ × LoadReport :=
  let (e, textureWarnings) := e.takeTextures textures
  let (e, skipped, textWarnings) := e.takeText layout text
  ({ e with loaded := true },
    { performed := true
      scenes := e.scenes.length
      textures := e.textures.size
      skipped
      warnings := textureWarnings ++ textWarnings })

end Entry

/-- All scenarios of a game, in the order in which they were found. -/
structure Store (τ : Type) where
  entries : List (Entry τ)

namespace Store

variable {τ : Type}

/-- The store of scenarios that were listed. -/
def ofListings (ls : List Listing) : Store τ := ⟨ls.map .ofListing⟩

/-- The store of scenarios that are not loaded yet. -/
def ofDescriptors (ds : List Descriptor) : Store τ := .ofListings (ds.map .found)

/-- The number of scenarios. -/
def size (s : Store τ) : Nat := s.entries.length

/-- The scenario at an index. -/
def get? (s : Store τ) (i : Nat) : Option (Entry τ) := s.entries[i]?

/-- The index of the first scenario with a file name. -/
def findIndex? (s : Store τ) (fileName : String) : Option Nat :=
  s.entries.findIdx? (·.descriptor.fileName == fileName)

/-- Puts an entry in the place of another. -/
def set (s : Store τ) (i : Nat) (e : Entry τ) : Store τ := ⟨s.entries.set i e⟩

/-- Changes the scenes of a scenario. -/
def modifyScenes (s : Store τ) (i : Nat) (f : List Scene → List Scene) : Store τ :=
  ⟨s.entries.modify i fun e => { e with scenes := f e.scenes }⟩

/-- Loads a scenario that is not loaded yet, asking the source for its textures and then
for its text. -/
def ensureLoaded {m : Type → Type} [Monad m] (layout : Layout) (source : Source m τ) (i : Nat)
    (s : Store τ) : m (Store τ × Option LoadReport) :=
  match s.get? i with
  | none => pure (s, none)
  | some e =>
    if e.loaded then pure (s, some .idle)
    else do
      let textures ← source.textures e.descriptor
      let text ← source.text e.descriptor
      let (e, report) := e.take layout textures text
      pure (s.set i e, some report)

/-- Lets everything go that was loaded. -/
def unloadAll (s : Store τ) : Store τ := ⟨s.entries.map Entry.unload⟩

end Store

/-- The scenario whose textures serve a whole game where they are shared. -/
def sharedScenario : String := "main.sc"

/-- Where a scene's textures are looked up. -/
inductive TextureLookup where
  | perScenario
  | shared
deriving DecidableEq, Repr

namespace TextureLookup

instance : Json.Codec TextureLookup where
  encode
    | .perScenario => .ofString "per_scenario"
    | .shared => .ofString "shared"
  decode := Json.decodeName [("per_scenario", .perScenario), ("shared", .shared)]

/-- The scenario whose textures count while one is active. -/
def scenario? {τ : Type} (lookup : TextureLookup) (s : Store τ) (active : Option Nat) :
    Option Nat :=
  match lookup with
  | .perScenario => active
  | .shared => s.findIndex? sharedScenario

/-- The texture of a name while a scenario is active. -/
def texture? {τ : Type} (lookup : TextureLookup) (s : Store τ) (active : Option Nat)
    (name : Option String) : Option τ := do
  let name ← name
  let i ← lookup.scenario? s active
  let e ← s.get? i
  e.textures.get? name

end TextureLookup

end VisualNovel
