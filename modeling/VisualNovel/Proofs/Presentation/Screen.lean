import VisualNovel.Presentation.Console
import VisualNovel.Proofs.Text.Decimal

/-!
# What a console prints

A console shows frames and lists, and at some moment the name of the developer. A list is always
printed, and a frame only if it is news: if it is the first one, if the frame before it has other
lines, or if a list was shown since. The name of the developer is printed once at most and leaves
everything else alone. A frame with the largest index of 64 bits cannot be counted from one: the
program breaks off there, and what was printed before stays.
-/

namespace VisualNovel

/-- Whether a call neither begins nor finishes a frame. -/
def DrawCall.isContent : DrawCall → Bool
  | .start _ => false
  | .finish => false
  | _ => true

/-- Whether the indices of a call can be counted from one. -/
def DrawCall.isCountable : DrawCall → Bool
  | .start (.playing _ scene) => scene < Text.maxIndex
  | .sprite slot _ _ => slot < Text.maxIndex
  | .choices offered => offered.all (·.index < Text.maxIndex)
  | _ => true

/-- Something that a console is to show. -/
inductive Exhibit where
  | frame (f : Frame) (texture? : String → Option Texture)
  | list (title : String) (items : List String)
  | intro (developer : String) (alpha : Float32)

namespace Exhibit

/-- Whether it is a frame. -/
def isFrame : Exhibit → Bool
  | .frame _ _ => true
  | _ => false

/-- Whether it is a list. -/
def isList : Exhibit → Bool
  | .list _ _ => true
  | _ => false

/-- Whether it belongs to the intro. -/
def isIntro : Exhibit → Bool
  | .intro _ _ => true
  | _ => false

/-- Whether it is the name of the developer, and fully visible. -/
def isVisibleIntro : Exhibit → Bool
  | .intro _ alpha => !(alpha < 1)
  | _ => false

/-- Whether all that it counts can be counted from one. -/
def isCountable : Exhibit → Bool
  | .frame f texture? => (f.draw texture?).all (·.isCountable)
  | _ => true

/-- Whether a list was shown since the last frame. -/
def listSince (before : List Exhibit) : Bool :=
  (before.reverse.takeWhile (!·.isFrame)).any (·.isList)

/-- The frames and lists. -/
def plain (shown : List Exhibit) : List Exhibit := shown.filter (!·.isIntro)

/-- What is shown before the program breaks off. -/
def reached (shown : List Exhibit) : List Exhibit := shown.takeWhile (·.isCountable)

end Exhibit

namespace Console

open Exhibit

/-- Shows something. -/
def exhibit (c : Console) : Exhibit → Option (Console × List String)
  | .frame f texture? => c.present (f.draw texture?)
  | .list title items => some (c.showList title items)
  | .intro developer alpha => some (c.showIntro developer alpha)

/-- Shows one thing after the other until the program breaks off; what is printed comes second. -/
def exhibitAll (c : Console) : List Exhibit → Option Console × List String
  | [] => (some c, [])
  | x :: shown =>
    match c.exhibit x with
    | none => (none, [])
    | some (c, printed) =>
      let (c, more) := c.exhibitAll shown
      (c, printed ++ more)

/-- The lines of a call, counted from one without any limit. -/
def countedLines (c : Console) : DrawCall → List String
  | .start (.playing scenario scene) =>
    ["== " ++ (scenario ++ " #" ++ Text.showNat (scene + 1)) ++ " =="]
  | .sprite slot parts focused =>
    ["[sprite " ++ Text.showNat (slot + 1) ++ "]" ++ (if focused then "*" else " ") ++ " " ++
      " + ".intercalate parts]
  | .choices offered =>
    offered.map fun o => "  (" ++ Text.showNat (o.index + 1) ++ ") " ++ o.label
  | call => (c.linesOf call).getD []

/-- The lines of a frame. -/
def frameLines (c : Console) (f : Frame) (texture? : String → Option Texture) : List String :=
  (f.draw texture?).flatMap c.countedLines

/-- The lines of an exhibit if it is a frame. -/
def frameLines? (c : Console) : Exhibit → Option (List String)
  | .frame f texture? => some (c.frameLines f texture?)
  | _ => none

/-- The lines of the last frame that was shown. -/
def lastFrame? (c : Console) (before : List Exhibit) : Option (List String) :=
  (before.filterMap c.frameLines?).getLast?

/-- Whether the lines of a frame are news: it is the first one, the frame before it has other
lines, or a list was shown since. -/
def isNews (c : Console) (before : List Exhibit) (lines : List String) : Bool :=
  c.lastFrame? before != some lines || listSince before

/-- What is to be printed for something that is shown after other things. -/
def news (c : Console) (before : List Exhibit) : Exhibit → List String
  | .frame f texture? =>
    if c.isNews before (c.frameLines f texture?) then c.frameLines f texture? else []
  | .list title items => (c.showList title items).2
  | .intro developer alpha =>
    if before.any (·.isVisibleIntro) || alpha < 1 then [] else ["~ " ++ developer ++ " ~"]

/-- What is to be printed for things that are shown after others. -/
def transcript (c : Console) : List Exhibit → List Exhibit → List String
  | _, [] => []
  | before, x :: shown => c.news before x ++ c.transcript (before ++ [x]) shown

/-- A console that has shown the name of the developer. -/
def introduced (c : Console) : Console := { c with introShown := true }

/-- What the intro adds to the other things that are shown. -/
inductive IntroAdds (c : Console) (shown : List Exhibit) : Prop where
  /-- Nothing, if the name is never fully visible. -/
  | nothing (hidden : (reached shown).any (·.isVisibleIntro) = false)
      (same : c.exhibitAll shown = c.exhibitAll (plain shown))
  /-- One line where the name is fully visible first. -/
  | name {before after : List Exhibit} {developer : String} {alpha : Float32}
      {printed : List String}
      (first : shown = before ++ .intro developer alpha :: after) (visible : ¬ alpha < 1)
      (countable : before.all (·.isCountable) = true)
      (hidden : before.any (·.isVisibleIntro) = false)
      (rest : (c.exhibitAll (plain shown)).2 = (c.exhibitAll (plain before)).2 ++ printed)
      (all : c.exhibitAll shown = ((c.exhibitAll (plain shown)).1.map introduced,
        (c.exhibitAll (plain before)).2 ++ ("~ " ++ developer ++ " ~") :: printed))

variable {c c' : Console} {before shown : List Exhibit} {x : Exhibit}

/-- Something is made of each element of a list if it is made of all that pass a test. -/
theorem mapM_eq_ite {α β : Type} {f : α → Option β} {p : α → Bool} {g : α → β}
    (h : ∀ a, f a = if p a then some (g a) else none) (as : List α) :
    as.mapM f = if as.all p then some (as.map g) else none := by
  induction as with
  | nil => rfl
  | cons a as ih =>
    rw [List.mapM_cons, ih, h, List.all_cons]
    cases p a with
    | false => rfl
    | true => cases as.all p <;> rfl

/-- A number is written for an index that can be counted from one. -/
theorem map_showOrdinal? {α : Type} (make : String → α) (index : Nat) :
    (Text.showOrdinal? index).map make =
      if decide (index < Text.maxIndex) then some (make (Text.showNat (index + 1))) else none := by
  by_cases h : index < Text.maxIndex
  · rw [Text.showOrdinal?_of_lt h, if_pos (decide_eq_true h)]
    rfl
  · rw [Text.showOrdinal?_of_le (Nat.not_lt.mp h), if_neg (by simpa using h)]
    rfl

/-- A call has its lines if its indices can be counted from one, and no lines otherwise. -/
theorem linesOf_eq (c : Console) (call : DrawCall) : c.linesOf call =
    if call.isCountable then some (c.countedLines call) else none := by
  cases call with
  | start state =>
    cases state with
    | playing scenario scene =>
      rw [linesOf, heading, Option.map_map]
      exact map_showOrdinal? _ scene
    | _ => rfl
  | sprite slot parts focused => exact map_showOrdinal? _ slot
  | choices offered => exact mapM_eq_ite (fun o => map_showOrdinal? _ o.index) offered
  | _ => rfl

/-- The lines of a call are a matter of the language only. -/
theorem countedLines_congr (hlanguages : c'.languages = c.languages)
    (hlanguage : c'.language = c.language) : c'.countedLines = c.countedLines := by
  have hcaption : c'.caption = c.caption := by
    funext text
    rw [caption, caption, hlanguages, hlanguage]
  have hheading : c'.heading = c.heading := by
    funext state
    cases state <;> simp only [heading, hcaption]
  have hlines : c'.linesOf = c.linesOf := by
    funext call
    cases call <;> simp only [linesOf, hheading, hcaption]
  funext call
  unfold countedLines
  rw [hlines]

/-- A frame has a heading at least. -/
theorem frameLines_ne_nil (c : Console) (f : Frame) (texture? : String → Option Texture) :
    c.frameLines f texture? ≠ [] := by
  rw [frameLines, Frame.draw, List.flatMap_cons]
  cases f.state <;> exact List.cons_ne_nil _ _

/-- What may be drawn of a frame. -/
inductive Draws (f : Frame) : DrawCall → Prop where
  | background (name : String) : Draws f (.background name)
  | backgroundOverlay (name : String) : Draws f (.backgroundOverlay name)
  | sprite {s : Sprite} (shown : s ∈ f.sprites) (parts : List String) :
      Draws f (.sprite s.slot parts s.focused)
  | dialogue : Draws f (.dialogue f.banner f.text)
  | choices : Draws f (.choices f.choices)
  | overlay (name : String) : Draws f (.overlay name)
  | pause : Draws f .pause
  | status (message : String) : Draws f (.status message)

/-- Nothing else is drawn. -/
theorem draws_of_mem_contents {f : Frame} {texture? : String → Option Texture} {call : DrawCall}
    (h : call ∈ f.contents texture?) : Draws f call := by
  have htexture {make : String → DrawCall} (hmake : ∀ name, Draws f (make name))
      {name : Option String} (hcall : call ∈ Frame.drawTexture texture? make name) :
      Draws f call := by
    rw [Frame.drawTexture, Option.mem_toList, Option.map_eq_some_iff] at hcall
    obtain ⟨t, _, rfl⟩ := hcall
    exact hmake t.name
  have hwhen {p : Bool} {made : DrawCall} (hmade : Draws f made)
      (hcall : call ∈ if p then [made] else []) : Draws f call := by
    split at hcall
    · obtain rfl := List.mem_singleton.mp hcall
      exact hmade
    · cases hcall
  simp only [Frame.contents, List.mem_append, or_assoc] at h
  rcases h with h | h | h | h | h | h | h | h
  · exact htexture .background h
  · exact htexture .backgroundOverlay h
  · obtain ⟨s, hs, hcall⟩ := List.mem_flatMap.mp h
    rw [Frame.drawSprite] at hcall
    split at hcall
    · cases hcall
    · obtain rfl := List.mem_singleton.mp hcall
      exact .sprite hs _
  · exact hwhen .dialogue h
  · exact hwhen .choices h
  · exact htexture .overlay h
  · exact hwhen .pause h
  · rw [Option.mem_toList, Option.map_eq_some_iff] at h
    obtain ⟨message, _, rfl⟩ := h
    exact .status message

/-- What a frame contains is drawn between its start and its end. -/
theorem isContent_of_mem_contents (f : Frame) (texture? : String → Option Texture) :
    ∀ call ∈ f.contents texture?, call.isContent = true := by
  intro call hcall
  cases draws_of_mem_contents hcall with
  | _ => rfl

/-- A console that has gathered some lines for a frame. -/
def gathering (c : Console) (lines : List String) : Console := { c with buffer := lines }

/-- The lines of a frame begin with its heading, whatever was gathered before. -/
theorem draw_start (c : Console) (state : State) : c.draw (.start state) =
    if (DrawCall.start state).isCountable then
      some (c.gathering (c.countedLines (.start state)), []) else none := by
  rw [draw, linesOf_eq]
  split <;> rfl

/-- A call for what a frame contains adds its lines. -/
theorem draw_of_isContent {call : DrawCall} (h : call.isContent = true) (lines : List String) :
    (c.gathering lines).draw call =
      if call.isCountable then some (c.gathering (lines ++ c.countedLines call), []) else none := by
  have hsame : (c.gathering lines).countedLines = c.countedLines := countedLines_congr rfl rfl
  rw [draw, linesOf_eq, hsame]
  cases hcountable : call.isCountable with
  | false => rfl
  | true =>
    cases call with
    | start state => cases h
    | finish => cases h
    | _ => rfl

/-- A frame that is finished is printed unless its lines are on the screen. -/
theorem put_finish (c : Console) (lines : List String) : (c.gathering lines).put [] .finish =
    if lines = c.last then (c.gathering lines, [])
    else ({ c with buffer := [], last := lines }, lines) := rfl

/-- The calls after the first one are carried out by the console that it leaves. -/
theorem present_cons_of_eq {call : DrawCall} (h : c.draw call = some (c', []))
    (calls : List DrawCall) : c.present (call :: calls) = c'.present calls := by
  rw [present, h]
  simp only [Option.bind_eq_bind, Option.bind_some, List.nil_append]
  exact Option.bind_fun_some _

/-- Calls for what a frame contains gather their lines, and nothing is printed before it is
finished. -/
theorem present_of_isContent {calls : List DrawCall} (h : ∀ call ∈ calls, call.isContent = true)
    (lines : List String) : (c.gathering lines).present (calls ++ [.finish]) =
      if calls.all (·.isCountable) then
        some ((c.gathering (lines ++ calls.flatMap c.countedLines)).put [] .finish)
      else none := by
  induction calls generalizing lines with
  | nil =>
    rw [List.flatMap_nil, List.append_nil, List.nil_append, present, draw]
    simp only [linesOf, present, Option.map_some, Option.bind_eq_bind, Option.bind_some,
      List.append_nil]
    rfl
  | cons call calls ih =>
    rw [List.forall_mem_cons] at h
    have hdraw := draw_of_isContent (c := c) h.1 lines
    rw [List.cons_append, List.all_cons]
    cases hcountable : call.isCountable with
    | false =>
      rw [hcountable] at hdraw
      rw [present, hdraw]
      rfl
    | true =>
      rw [hcountable] at hdraw
      rw [present_cons_of_eq hdraw, ih h.2, List.append_assoc, ← List.flatMap_cons, Bool.true_and]

/-- Whatever was gathered before, a frame is printed as its own lines unless they are on the
screen. The program breaks off at it if it cannot be counted. -/
theorem present_draw (c : Console) (f : Frame) (texture? : String → Option Texture) :
    c.present (f.draw texture?) = if (f.draw texture?).all (·.isCountable) then
      some (if c.frameLines f texture? = c.last then (c.gathering (c.frameLines f texture?), [])
        else ({ c with buffer := [], last := c.frameLines f texture? }, c.frameLines f texture?))
      else none := by
  have hlines : c.countedLines (.start f.state) ++ (f.contents texture?).flatMap c.countedLines =
      c.frameLines f texture? := by
    rw [frameLines, Frame.draw, List.flatMap_cons, List.flatMap_append, List.flatMap_singleton]
    exact congrArg _ (List.append_nil _).symm
  have hall : (f.draw texture?).all (·.isCountable) =
      ((DrawCall.start f.state).isCountable && (f.contents texture?).all (·.isCountable)) := by
    rw [Frame.draw, List.all_cons, List.all_append]
    exact congrArg _ (Bool.and_true _)
  have hdraw := draw_start c f.state
  rw [hall, Frame.draw]
  cases hcountable : (DrawCall.start f.state).isCountable with
  | false =>
    rw [hcountable] at hdraw
    rw [present, hdraw]
    rfl
  | true =>
    rw [hcountable] at hdraw
    rw [present_cons_of_eq hdraw, present_of_isContent (isContent_of_mem_contents f texture?),
      hlines, put_finish, Bool.true_and]

/-- What a console remembers after some things were shown: the lines of the last frame, if no
list was shown since, and whether the name of the developer was. -/
structure Recalls (c : Console) (before : List Exhibit) (c' : Console) : Prop where
  languages : c'.languages = c.languages
  language : c'.language = c.language
  last : c'.last = if listSince before then [] else (c.lastFrame? before).getD []
  introShown : c'.introShown = before.any (·.isVisibleIntro)

/-- A list counts as long as no frame is shown. -/
theorem listSince_concat (before : List Exhibit) (x : Exhibit) :
    listSince (before ++ [x]) = (!x.isFrame && (x.isList || listSince before)) := by
  rw [listSince, List.reverse_concat, List.takeWhile_cons]
  cases x.isFrame with
  | false => simp [listSince]
  | true => rfl

/-- The last frame is the one that was shown last. -/
theorem lastFrame?_concat (c : Console) (before : List Exhibit) (x : Exhibit) :
    c.lastFrame? (before ++ [x]) = (c.frameLines? x).or (c.lastFrame? before) := by
  rw [lastFrame?, List.filterMap_append]
  cases hx : c.frameLines? x with
  | none => simp [hx, lastFrame?]
  | some lines => simp [hx]

/-- The lines of a frame are news exactly if they are not those that are remembered. -/
theorem Recalls.isNews_iff (h : c.Recalls before c') (f : Frame)
    (texture? : String → Option Texture) :
    c.isNews before (c.frameLines f texture?) = true ↔ c.frameLines f texture? ≠ c'.last := by
  have hne := c.frameLines_ne_nil f texture?
  rw [isNews, Bool.or_eq_true, bne_iff_ne, h.last]
  cases listSince before with
  | true => simpa using hne
  | false =>
    cases hlast : c.lastFrame? before with
    | none => simpa using hne
    | some last => simp [eq_comm]

/-- What is remembered of a frame is its lines, whether they were printed or not. -/
theorem Recalls.frame (h : c.Recalls before c') {f : Frame} {texture? : String → Option Texture}
    (hcountable : (f.draw texture?).all (·.isCountable) = true) :
    ∃ c'', c'.present (f.draw texture?) = some (c'', c.news before (.frame f texture?)) ∧
      c.Recalls (before ++ [.frame f texture?]) c'' := by
  have hlines : c'.frameLines f texture? = c.frameLines f texture? := by
    rw [frameLines, countedLines_congr h.languages h.language, frameLines]
  have hlast : (if listSince (before ++ [.frame f texture?]) then [] else
      (c.lastFrame? (before ++ [.frame f texture?])).getD []) = c.frameLines f texture? := by
    rw [listSince_concat, lastFrame?_concat]
    rfl
  have hintro : (before ++ [Exhibit.frame f texture?]).any (·.isVisibleIntro) =
      before.any (·.isVisibleIntro) := by
    rw [List.any_append, List.any_cons]
    exact Bool.or_false _
  rw [present_draw, if_pos hcountable, news, hlines]
  by_cases hsame : c.frameLines f texture? = c'.last
  · rw [if_pos hsame, if_neg (mt (h.isNews_iff f texture?).mp (not_not_intro hsame))]
    exact ⟨_, rfl, h.languages, h.language, hsame.symm.trans hlast.symm,
      h.introShown.trans hintro.symm⟩
  · rw [if_neg hsame, if_pos ((h.isNews_iff f texture?).mpr hsame)]
    exact ⟨_, rfl, h.languages, h.language, hlast.symm, h.introShown.trans hintro.symm⟩

/-- After a list nothing is remembered of the frames before it. -/
theorem Recalls.list (h : c.Recalls before c') (title : String) (items : List String) :
    c.Recalls (before ++ [.list title items]) (c'.showList title items).1 ∧
      (c'.showList title items).2 = c.news before (.list title items) := by
  refine ⟨⟨h.languages, h.language, ?_, ?_⟩, ?_⟩
  · rw [listSince_concat]
    rfl
  · rw [List.any_append, List.any_cons]
    exact h.introShown.trans (Bool.or_false _).symm
  · simp only [showList, news, caption, h.languages, h.language]

/-- The name of the developer counts as shown once it is fully visible. -/
theorem showIntro_eq (c : Console) (developer : String) (alpha : Float32) :
    c.showIntro developer alpha = ({ c with introShown := c.introShown || !decide (alpha < 1) },
      if c.introShown || alpha < 1 then [] else ["~ " ++ developer ++ " ~"]) := by
  obtain ⟨languages, language, buffer, last, introShown⟩ := c
  cases introShown with
  | true => rfl
  | false => by_cases halpha : alpha < 1 <;> simp [showIntro, halpha]

/-- The intro leaves alone what is remembered of the frames. -/
theorem Recalls.intro (h : c.Recalls before c') (developer : String) (alpha : Float32) :
    c.Recalls (before ++ [.intro developer alpha]) (c'.showIntro developer alpha).1 ∧
      (c'.showIntro developer alpha).2 = c.news before (.intro developer alpha) := by
  have hlast : c'.last = if listSince (before ++ [.intro developer alpha]) then [] else
      (c.lastFrame? (before ++ [.intro developer alpha])).getD [] := by
    rw [listSince_concat, lastFrame?_concat]
    exact h.last
  have hintro : (before ++ [Exhibit.intro developer alpha]).any (·.isVisibleIntro) =
      (c'.introShown || !decide (alpha < 1)) := by
    rw [List.any_append, List.any_cons, ← h.introShown]
    exact congrArg _ (Bool.or_false _)
  rw [showIntro_eq, news, ← h.introShown]
  exact ⟨⟨h.languages, h.language, hlast, hintro.symm⟩, rfl⟩

/-- Whatever is shown and can be counted, its news are printed and it is remembered. -/
theorem Recalls.exhibit (h : c.Recalls before c') (hcountable : x.isCountable = true) :
    ∃ c'', c'.exhibit x = some (c'', c.news before x) ∧ c.Recalls (before ++ [x]) c'' := by
  cases x with
  | frame f texture? => exact h.frame hcountable
  | list title items =>
    obtain ⟨hrecalls, hnews⟩ := h.list title items
    exact ⟨_, congrArg some (Prod.ext rfl hnews), hrecalls⟩
  | intro developer alpha =>
    obtain ⟨hrecalls, hnews⟩ := h.intro developer alpha
    exact ⟨_, congrArg some (Prod.ext rfl hnews), hrecalls⟩

/-- The program goes on exactly after what can be counted. -/
theorem isSome_exhibit (c : Console) (x : Exhibit) : (c.exhibit x).isSome = x.isCountable := by
  cases x with
  | frame f texture? =>
    rw [exhibit, present_draw, isCountable]
    cases (f.draw texture?).all (·.isCountable) <;> rfl
  | _ => rfl

/-- The program breaks off at what cannot be counted. -/
theorem exhibit_eq_none (c : Console) (hx : x.isCountable = false) : c.exhibit x = none := by
  rw [← Option.not_isSome_iff_eq_none, isSome_exhibit, hx]
  exact Bool.false_ne_true

/-- What was shown could be counted. -/
theorem isCountable_of_exhibit {printed : List String} (h : c.exhibit x = some (c', printed)) :
    x.isCountable = true := by
  rw [← isSome_exhibit c, h]
  rfl

/-- Nothing is shown after the program has broken off. -/
theorem exhibitAll_cons_of_none (h : c.exhibit x = none) (shown : List Exhibit) :
    c.exhibitAll (x :: shown) = (none, []) := by
  rw [exhibitAll, h]

/-- The rest is shown by the console that the first exhibit leaves. -/
theorem exhibitAll_cons_of_some {printed : List String} (h : c.exhibit x = some (c', printed))
    (shown : List Exhibit) : c.exhibitAll (x :: shown) =
      ((c'.exhibitAll shown).1, printed ++ (c'.exhibitAll shown).2) := by
  rw [exhibitAll, h]

/-- The rest is shown by the console that the exhibits before it leave. -/
theorem exhibitAll_append {printed : List String}
    (h : c.exhibitAll before = (some c', printed)) (shown : List Exhibit) :
    c.exhibitAll (before ++ shown) =
      ((c'.exhibitAll shown).1, printed ++ (c'.exhibitAll shown).2) := by
  induction before generalizing c printed with
  | nil =>
    cases h
    rfl
  | cons x before ih =>
    cases hx : c.exhibit x with
    | none =>
      rw [exhibitAll_cons_of_none hx] at h
      cases h
    | some r =>
      obtain ⟨c₁, first⟩ := r
      rw [exhibitAll_cons_of_some hx, Prod.mk.injEq] at h
      obtain ⟨hrest, rfl⟩ := h
      rw [List.cons_append, exhibitAll_cons_of_some hx, ih (Prod.ext hrest rfl), List.append_assoc]

/-- What is printed is the transcript of what is shown before the program breaks off. -/
theorem Recalls.printed (h : c.Recalls before c') (shown : List Exhibit) :
    (c'.exhibitAll shown).2 = c.transcript before (reached shown) ∧
      (c'.exhibitAll shown).1.isSome = shown.all (·.isCountable) := by
  induction shown generalizing c' before with
  | nil => exact ⟨rfl, rfl⟩
  | cons x shown ih =>
    rw [reached, List.takeWhile_cons, List.all_cons]
    cases hcountable : x.isCountable with
    | false =>
      rw [exhibitAll_cons_of_none (c'.exhibit_eq_none hcountable)]
      exact ⟨rfl, rfl⟩
    | true =>
      obtain ⟨c'', hexhibit, hrecalls⟩ := h.exhibit hcountable
      obtain ⟨hprinted, hsome⟩ := ih hrecalls
      rw [exhibitAll_cons_of_some hexhibit, hprinted]
      exact ⟨rfl, hsome⟩

/-- The frames and lists of two parts. -/
theorem plain_append (before shown : List Exhibit) :
    plain (before ++ shown) = plain before ++ plain shown :=
  List.filter_append before shown

/-- A frame or a list is shown in the same way after the intro and leaves it alone. -/
theorem exhibit_introduced (hx : x.isIntro = false) :
    c.introduced.exhibit x = (c.exhibit x).map fun r => (r.1.introduced, r.2) := by
  cases x with
  | frame f texture? =>
    have hlines : c.introduced.frameLines f texture? = c.frameLines f texture? := by
      have hcalls : c.introduced.countedLines = c.countedLines := countedLines_congr rfl rfl
      rw [frameLines, hcalls, frameLines]
    have hlast : c.introduced.last = c.last := rfl
    rw [exhibit, exhibit, present_draw, present_draw, hlines, hlast]
    split
    · split <;> rfl
    · rfl
  | list title items => rfl
  | intro developer alpha => cases hx

/-- A frame or a list does not count as the name. -/
theorem introShown_exhibit (hx : x.isIntro = false) {printed : List String}
    (h : c.exhibit x = some (c', printed)) : c'.introShown = c.introShown := by
  cases x with
  | frame f texture? =>
    rw [exhibit, present_draw] at h
    split at h
    · split at h <;> cases h <;> rfl
    · cases h
  | list title items =>
    cases h
    rfl
  | intro developer alpha => cases hx

/-- The intro is passed over if the name was shown before or is not fully visible. -/
theorem exhibit_of_passed (hx : x.isIntro = true)
    (hpassed : x.isVisibleIntro = true → c.introShown = true) : c.exhibit x = some (c, []) := by
  cases x with
  | frame f texture? => cases hx
  | list title items => cases hx
  | intro developer alpha =>
    rw [exhibit, showIntro, if_pos]
    rw [isVisibleIntro] at hpassed
    rw [Bool.or_eq_true]
    by_cases halpha : alpha < 1
    · exact .inr (decide_eq_true halpha)
    · exact .inl (hpassed (by rw [decide_eq_false halpha]; rfl))

/-- An intro can always be counted, as it counts nothing. -/
theorem isCountable_of_isIntro (hx : x.isIntro = true) : x.isCountable = true := by
  cases x with
  | intro developer alpha => rfl
  | _ => cases hx

/-- Where the intro is passed over, everything is as without it. -/
theorem exhibitAll_of_passed
    (hpassed : ∀ x ∈ reached shown, x.isVisibleIntro = true → c.introShown = true) :
    c.exhibitAll shown = c.exhibitAll (plain shown) := by
  induction shown generalizing c with
  | nil => rfl
  | cons x shown ih =>
    rw [reached, List.takeWhile_cons] at hpassed
    cases hx : x.isIntro with
    | true =>
      have hplain : plain (x :: shown) = plain shown :=
        List.filter_cons_of_neg (by rw [hx]; decide)
      rw [if_pos (isCountable_of_isIntro hx), List.forall_mem_cons] at hpassed
      rw [exhibitAll_cons_of_some (exhibit_of_passed hx hpassed.1), hplain, ih hpassed.2,
        List.nil_append]
    | false =>
      have hplain : plain (x :: shown) = x :: plain shown :=
        List.filter_cons_of_pos (by rw [hx]; decide)
      rw [hplain]
      cases hexhibit : c.exhibit x with
      | none => rw [exhibitAll_cons_of_none hexhibit, exhibitAll_cons_of_none hexhibit]
      | some r =>
        rw [if_pos (isCountable_of_exhibit hexhibit), List.forall_mem_cons] at hpassed
        rw [exhibitAll_cons_of_some hexhibit, exhibitAll_cons_of_some hexhibit,
          ih fun y hy hvisible => (introShown_exhibit hx hexhibit).trans (hpassed.2 y hy hvisible)]

/-- No intro is left among the frames and lists. -/
theorem isIntro_of_mem_plain : ∀ x ∈ plain shown, x.isIntro = false := by
  intro x hx
  simpa using (List.mem_filter.mp hx).2

/-- The frames and lists are shown in the same way after the intro. -/
theorem exhibitAll_introduced (h : ∀ x ∈ shown, x.isIntro = false) :
    c.introduced.exhibitAll shown =
      ((c.exhibitAll shown).1.map introduced, (c.exhibitAll shown).2) := by
  induction shown generalizing c with
  | nil => rfl
  | cons x shown ih =>
    rw [List.forall_mem_cons] at h
    have hintroduced := exhibit_introduced (c := c) h.1
    cases hexhibit : c.exhibit x with
    | none =>
      rw [hexhibit] at hintroduced
      rw [exhibitAll_cons_of_none hexhibit, exhibitAll_cons_of_none hintroduced]
      rfl
    | some r =>
      rw [hexhibit] at hintroduced
      rw [exhibitAll_cons_of_some hexhibit, exhibitAll_cons_of_some hintroduced, ih h.2]

/-- Nor do frames and lists one after the other. -/
theorem introShown_exhibitAll (h : ∀ x ∈ shown, x.isIntro = false) {printed : List String}
    (hshown : c.exhibitAll shown = (some c', printed)) : c'.introShown = c.introShown := by
  induction shown generalizing c printed with
  | nil =>
    cases hshown
    rfl
  | cons x shown ih =>
    rw [List.forall_mem_cons] at h
    cases hexhibit : c.exhibit x with
    | none =>
      rw [exhibitAll_cons_of_none hexhibit] at hshown
      cases hshown
    | some r =>
      rw [exhibitAll_cons_of_some hexhibit, Prod.mk.injEq] at hshown
      rw [ih h.2 (Prod.ext hshown.1 rfl), introShown_exhibit h.1 hexhibit]

/-- What can be counted is shown to its end. -/
theorem exists_exhibitAll_eq (c : Console) (h : shown.all (·.isCountable) = true) :
    ∃ c' printed, c.exhibitAll shown = (some c', printed) := by
  induction shown generalizing c with
  | nil => exact ⟨c, [], rfl⟩
  | cons x shown ih =>
    rw [List.all_cons, Bool.and_eq_true] at h
    obtain ⟨⟨c₁, printed⟩, hexhibit⟩ :=
      Option.isSome_iff_exists.mp ((isSome_exhibit c x).trans h.1)
    obtain ⟨c', more, hrest⟩ := ih c₁ h.2
    refine ⟨c', printed ++ more, ?_⟩
    rw [exhibitAll_cons_of_some hexhibit, hrest]

/-- The name is printed where it is fully visible first, and everything else as without it. -/
theorem exhibitAll_name (hc : c.introShown = false)
    (hbefore : ∀ x ∈ before, x.isVisibleIntro = false) {alpha : Float32} (halpha : ¬ alpha < 1)
    (developer : String) {printed : List String}
    (hshown : c.exhibitAll (plain before) = (some c', printed)) (after : List Exhibit) :
    c.exhibitAll (before ++ .intro developer alpha :: after) =
      ((c'.exhibitAll (plain after)).1.map introduced,
        printed ++ ("~ " ++ developer ++ " ~") :: (c'.exhibitAll (plain after)).2) := by
  have hplain : c.exhibitAll before = (some c', printed) := by
    rw [← hshown]
    exact exhibitAll_of_passed fun x hx h =>
      absurd h (Bool.eq_false_iff.mp (hbefore x ((List.takeWhile_sublist _).subset hx)))
  have hname : c'.exhibit (.intro developer alpha) =
      some (c'.introduced, ["~ " ++ developer ++ " ~"]) := by
    rw [exhibit, showIntro_eq, introShown_exhibitAll isIntro_of_mem_plain hshown, hc,
      decide_eq_false halpha]
    rfl
  have hafter : c'.introduced.exhibitAll after = _ :=
    (exhibitAll_of_passed fun _ _ _ => rfl).trans (exhibitAll_introduced isIntro_of_mem_plain)
  rw [exhibitAll_append hplain, exhibitAll_cons_of_some hname, hafter]
  rfl

/-- As long as the name was not shown, the intro adds one line at most. -/
theorem introAdds (hc : c.introShown = false) (shown : List Exhibit) : c.IntroAdds shown := by
  cases hfirst : (reached shown).find? (·.isVisibleIntro) with
  | none =>
    rw [List.find?_eq_none] at hfirst
    refine .nothing ?_ (exhibitAll_of_passed fun x hx hvisible => absurd hvisible (hfirst x hx))
    rw [List.any_eq_false]
    exact hfirst
  | some x =>
    obtain ⟨hvisible, before, after, hreached, hbefore⟩ := List.find?_eq_some_iff_append.mp hfirst
    cases x with
    | frame f texture? => cases hvisible
    | list title items => cases hvisible
    | intro developer alpha =>
      have halpha : ¬ alpha < 1 := by simpa [isVisibleIntro] using hvisible
      have hhidden : ∀ x ∈ before, x.isVisibleIntro = false := by simpa using hbefore
      obtain ⟨rest, rfl⟩ : ∃ rest, shown = before ++ .intro developer alpha :: rest := by
        refine ⟨after ++ shown.dropWhile (·.isCountable), ?_⟩
        rw [← List.cons_append, ← List.append_assoc, ← hreached]
        exact (List.takeWhile_append_dropWhile).symm
      have hcountable : before.all (·.isCountable) = true := by
        rw [List.all_eq_true]
        intro x hx
        have hmem : x ∈ reached _ := hreached ▸ List.mem_append_left _ hx
        exact List.all_eq_true.mp List.all_takeWhile x hmem
      have hplainCountable : (plain before).all (·.isCountable) = true := by
        rw [List.all_eq_true] at hcountable ⊢
        exact fun x hx => hcountable x (List.mem_filter.mp hx).1
      obtain ⟨c', printed, hshown⟩ := c.exists_exhibitAll_eq hplainCountable
      have hall : c.exhibitAll (plain (before ++ .intro developer alpha :: rest)) =
          ((c'.exhibitAll (plain rest)).1, printed ++ (c'.exhibitAll (plain rest)).2) := by
        rw [plain_append, exhibitAll_append hshown]
        rfl
      refine .name rfl halpha hcountable ?_ (by rw [hall, hshown]) ?_
      · rw [List.any_eq_false]
        exact fun x hx => Bool.eq_false_iff.mp (hhidden x hx)
      · rw [exhibitAll_name hc hhidden halpha developer hshown, hall, hshown]

/-- For every sequence of frames, lists and intros what is printed is its transcript, to which the
intro adds one line at most. The console goes on to the end if all of it can be counted; otherwise
the program breaks off, and the transcript is that of what was shown before. -/
theorem exhibitAll_start (languages : Languages) (language : Option String)
    (shown : List Exhibit) :
    ((start languages language).exhibitAll shown).2 =
        (start languages language).transcript [] (reached shown) ∧
      ((start languages language).exhibitAll shown).1.isSome = shown.all (·.isCountable) ∧
      (start languages language).IntroAdds shown := by
  have hrecalls : (start languages language).Recalls [] (start languages language) :=
    ⟨rfl, rfl, rfl, rfl⟩
  obtain ⟨hprinted, hsome⟩ := hrecalls.printed shown
  exact ⟨hprinted, hsome, introAdds rfl shown⟩

/-- The same menu again is not printed, but it is after a list. -/
example :
    let menu := Exhibit.frame (.menu .mainMenu none false) fun _ => none
    ((start ⟨[]⟩ none).exhibitAll [menu, menu, .list "Saves" [], menu]).2 =
      ["== Main menu ==", "-- Saves --", "  (empty)", "== Main menu =="] := by
  decide +kernel

end Console

end VisualNovel
