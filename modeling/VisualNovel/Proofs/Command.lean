import VisualNovel.Command
import VisualNovel.Proofs.Text.Cut
import VisualNovel.Proofs.Text.Words

/-!
# Commands and their lines

Every command has a line of its own: its words in small letters and what belongs to it, with
single spaces between them. The main statement says which commands can be given at all, that
each of them is read from its own line, and that a line which is no command is refused as it
stands. So every line that is a command can be put into this form without a change of meaning.
-/

namespace VisualNovel

open Text

namespace Command

/-- The first word of a phrase is cut off, and the rest is a phrase again. -/
theorem splitWord_phrase {word : String} {rest : List String} (hword : IsWord word)
    (hrest : ∀ s ∈ rest, trim s = s) : splitWord (phrase (word :: rest)) = (word, phrase rest) := by
  have htexts : ∀ s ∈ word :: rest, trim s = s := List.forall_mem_cons.mpr ⟨hword.trim_eq, hrest⟩
  rw [splitWord, trim_phrase htexts, phrase, if_neg hword.ne_empty]
  by_cases hempty : phrase rest = ""
  · rw [if_pos hempty, cutAtFirst_eq_none hword.unbroken, hempty]
  · have hlist : (word ++ " " ++ phrase rest).toList =
        word.toList ++ ' ' :: (phrase rest).toList := by
      simp
    rw [if_neg hempty, hlist, cutAtFirst_append_cons hword.unbroken (by decide)]
    simp only [String.ofList_toList, trim_phrase hrest]

/-- The first word of a line is a word, unless there is none. -/
theorem isWord_fst_splitWord {line : String} (h : (splitWord line).1 ≠ "") :
    IsWord (splitWord line).1 := by
  refine ⟨h, fun c hc => ?_⟩
  rw [splitWord] at hc
  split at hc
  · next hcut =>
    obtain ⟨_, _, _, hword⟩ := exists_of_cutAtFirst_eq_some hcut
    rw [String.toList_ofList] at hc
    exact hword c hc
  · next hcut => exact forall_of_cutAtFirst_eq_none hcut c hc

/-- The rest of a line is trimmed. -/
theorem trim_snd_splitWord (line : String) : trim (splitWord line).2 = (splitWord line).2 := by
  rw [splitWord]
  split
  · exact trim_trim _
  · rfl

/-- The number that an index is given as. -/
def numeral (index : Nat) : String := showNat (index + 1)

/-- The number of an index is a single word. -/
theorem isWord_numeral (index : Nat) : IsWord (numeral index) := isWord_showNat _

/-- An index is read from its number, if there is such an index. -/
theorem index?_numeral {index : Nat} (h : index < maxIndex) :
    index? (numeral index) = some index := by
  have hdigits : (numeral index).toList = Nat.toDigits 10 (index + 1) := by
    rw [numeral, showNat, String.toList_ofList]
  have htrim : trimChars (numeral index).toList = (numeral index).toList :=
    trimChars_eq_self_of_forall (isWord_numeral index).unbroken
  rw [index?, htrim, hdigits, readBounded?_toDigits h]
  rfl

/-- Every number that is read stands for an index below the largest one. -/
theorem lt_of_index?_eq_some {word : String} {index : Nat} (h : index? word = some index) :
    index < maxIndex := by
  rw [index?] at h
  obtain ⟨n, hread, h⟩ := Option.bind_eq_some_iff.mp h
  have hbound : n ≤ maxIndex := by
    rw [readBounded?.eq_def] at hread
    simpa using (Option.filter_eq_some_iff.mp hread).2
  cases n with
  | zero => cases h
  | succ n =>
    cases h
    omega

/-- The name of a part stands for that part. -/
theorem part?_name (part : PortraitPart) : part? part.name = some part := by
  cases part <;> rfl

/-- The name of a part is a single word. -/
theorem isWord_name (part : PortraitPart) : IsWord part.name := by
  cases part <;> decide

/-- What stands before the first bar is the label, and what stands behind it the target. -/
theorem splitChoice_phrase {label target : String} (hbar : '|' ∉ label.toList)
    (hlabel : trim label = label) (htarget : trim target = target) :
    splitChoice (phrase [label, "|", target]) = (label, target) := by
  obtain ⟨front, back, hphrase, hbar', hfront, hback⟩ : ∃ front back : List Char,
      (phrase [label, "|", target]).toList = front ++ '|' :: back ∧ '|' ∉ front ∧
        trimChars front = label.toList ∧ trimChars back = target.toList := by
    refine ⟨if label = "" then [] else label.toList ++ [' '],
      if target = "" then [] else ' ' :: target.toList, ?_, ?_, ?_, ?_⟩
    · by_cases hl : label = "" <;> by_cases ht : target = "" <;> simp [phrase, hl, ht]
    · split <;> simp [hbar]
    · split
      · next hl => rw [hl]; rfl
      · rw [trimChars_concat (by decide)]
        exact trim_eq_self_iff.mp hlabel
    · split
      · next ht => rw [ht]; rfl
      · rw [trimChars_cons (by decide)]
        exact trim_eq_self_iff.mp htarget
  have hbefore : ∀ c ∈ front, (c == '|') = false := by
    intro c hc
    rw [beq_eq_false_iff_ne]
    rintro rfl
    exact hbar' hc
  rw [splitChoice, hphrase, cutAtFirst_append_cons hbefore (beq_self_eq_true _)]
  simp only [trim, String.toList_ofList, hfront, hback, String.ofList_toList]

/-- A number in front of a text is cut off. -/
theorem splitWord_numeral (index : Nat) {text : String} (h : trim text = text) :
    splitWord (phrase [numeral index, text]) = (numeral index, text) := by
  rw [splitWord_phrase (isWord_numeral index) (by simpa using h), phrase_singleton]

/-- A label has no bar, and neither it nor the target has anything to trim. -/
theorem splitChoice_spec (text : String) :
    '|' ∉ (splitChoice text).1.toList ∧ trim (splitChoice text).1 = (splitChoice text).1 ∧
      trim (splitChoice text).2 = (splitChoice text).2 := by
  rw [splitChoice]
  split
  · next front back hcut =>
    obtain ⟨_, _, _, hfront⟩ := exists_of_cutAtFirst_eq_some hcut
    refine ⟨fun hbar => ?_, trim_trim _, trim_trim _⟩
    have hmem := mem_of_mem_trim hbar
    rw [String.toList_ofList] at hmem
    exact absurd (hfront _ hmem) (by decide)
  · next hcut =>
    refine ⟨fun hbar => ?_, trim_trim _, rfl⟩
    exact absurd (forall_of_cutAtFirst_eq_none hcut _ (mem_of_mem_trim hbar)) (by decide)

end Command

namespace EditCommand

open Command

/-- The word that an edit begins with. -/
def verb : EditCommand → String
  | .scene _ => "scene"
  | .append => "append"
  | .duplicate => "duplicate"
  | .remove => "remove"
  | .line _ _ => "line"
  | .name _ _ => "name"
  | .main _ => "main"
  | .choice _ _ _ => "button"
  | .background _ => "bg"
  | .backgroundOverlay _ => "bgoverlay"
  | .overlay _ => "overlay"
  | .music _ => "music"
  | .sound _ => "sound"
  | .texture _ _ _ => "texture"
  | .save => "save"

/-- What follows the first word of an edit. -/
def arguments : EditCommand → List String
  | .append | .duplicate | .remove | .save => []
  | .scene index => [numeral index]
  | .line slot text | .name slot text => [numeral slot, text]
  | .main text | .background text | .backgroundOverlay text | .overlay text | .music text
  | .sound text => [text]
  | .choice index label target => [numeral index, label, "|", target]
  | .texture slot part asset => [numeral slot, part.name, asset]

/-- The edits that can be given: with indices in range, trimmed texts, and no bar in a label. -/
def Canonical : EditCommand → Prop
  | .append | .duplicate | .remove | .save => True
  | .scene index => index < maxIndex
  | .line slot text | .name slot text => slot < maxIndex ∧ trim text = text
  | .main text | .background text | .backgroundOverlay text | .overlay text | .music text
  | .sound text => trim text = text
  | .choice index label target =>
    index < maxIndex ∧ '|' ∉ label.toList ∧ trim label = label ∧ trim target = target
  | .texture slot _ asset => slot < maxIndex ∧ trim asset = asset

variable {c : EditCommand}

/-- An edit begins with a single word. -/
theorem isWord_verb (c : EditCommand) : IsWord c.verb := by
  cases c <;> rw [verb] <;> decide

/-- The first word of an edit is written as it is looked up. -/
theorem keyword_verb (c : EditCommand) : keyword c.verb = c.verb := by
  cases c <;> rw [verb] <;> rfl

/-- What follows the first word of an edit that can be given has nothing to trim. -/
theorem trim_arguments (h : c.Canonical) : ∀ s ∈ c.arguments, trim s = s := by
  have hnumeral (index : Nat) := (isWord_numeral index).trim_eq
  cases c with
  | append | duplicate | remove | save => simp [arguments]
  | scene index => simp [arguments, hnumeral]
  | line slot text | name slot text =>
    obtain ⟨_, htext⟩ := h
    simp [arguments, hnumeral, htext]
  | main text | background text | backgroundOverlay text | overlay text | music text
  | sound text =>
    have htext : trim text = text := h
    simp [arguments, htext]
  | choice index label target =>
    obtain ⟨_, _, hlabel, htarget⟩ := h
    have hbar : trim "|" = "|" := rfl
    simp [arguments, hnumeral, hlabel, htarget, hbar]
  | texture slot part asset =>
    obtain ⟨_, hasset⟩ := h
    simp [arguments, hnumeral, hasset, (isWord_name part).trim_eq]

/-- An edit that can be given is read from its words. -/
theorem edit?_phrase (h : c.Canonical) : edit? (phrase (c.verb :: c.arguments)) = some c := by
  unfold edit?
  rw [splitWord_phrase c.isWord_verb (trim_arguments h)]
  dsimp only
  rw [c.keyword_verb]
  cases c with
  | append | duplicate | remove | save => simp only [verb]
  | scene index =>
    simp only [verb, arguments]
    rw [phrase_singleton, index?_numeral h, Option.map_some]
  | line slot text | name slot text =>
    obtain ⟨hslot, htext⟩ := h
    simp only [verb, arguments]
    rw [splitWord_numeral slot htext, index?_numeral hslot, Option.map_some]
  | main text | background text | backgroundOverlay text | overlay text | music text
  | sound text =>
    simp only [verb, arguments, phrase_singleton]
  | choice index label target =>
    obtain ⟨hindex, hbar, hlabel, htarget⟩ := h
    have hrest : ∀ s ∈ [label, "|", target], trim s = s := by
      have hsign : trim "|" = "|" := rfl
      simp [hlabel, htarget, hsign]
    simp only [verb, arguments]
    rw [splitWord_phrase (isWord_numeral index) hrest]
    dsimp only
    rw [splitChoice_phrase hbar hlabel htarget, index?_numeral hindex, Option.map_some]
  | texture slot part asset =>
    obtain ⟨hslot, hasset⟩ := h
    have hrest : ∀ s ∈ [part.name, asset], trim s = s := by
      simp [(isWord_name part).trim_eq, hasset]
    simp only [verb, arguments]
    rw [splitWord_phrase (isWord_numeral slot) hrest]
    dsimp only
    rw [splitWord_phrase (isWord_name part) (by simpa using hasset), phrase_singleton]
    dsimp only
    rw [index?_numeral hslot, part?_name]
    rfl

/-- Every edit that is read can be given. -/
theorem canonical_of_edit? {text : String} (h : edit? text = some c) : c.Canonical := by
  have hrest := trim_snd_splitWord text
  unfold edit? at h
  generalize splitWord text = cut at h hrest
  obtain ⟨word, rest⟩ := cut
  dsimp only at h hrest
  split at h
  case h_1 =>
    obtain ⟨index, hindex, rfl⟩ := Option.map_eq_some_iff.mp h
    exact lt_of_index?_eq_some hindex
  case h_6 | h_7 =>
    obtain ⟨slot, hslot, rfl⟩ := Option.map_eq_some_iff.mp h
    exact ⟨lt_of_index?_eq_some hslot, trim_snd_splitWord rest⟩
  case h_14 =>
    obtain ⟨slot, hslot, h⟩ := Option.bind_eq_some_iff.mp h
    obtain ⟨part, _, h⟩ := Option.bind_eq_some_iff.mp h
    cases h
    exact ⟨lt_of_index?_eq_some hslot, trim_snd_splitWord _⟩
  case h_15 =>
    obtain ⟨index, hindex, rfl⟩ := Option.map_eq_some_iff.mp h
    exact ⟨lt_of_index?_eq_some hindex, splitChoice_spec _⟩
  case h_16 => cases h
  all_goals
    cases h
    first
      | exact hrest
      | trivial

end EditCommand

namespace Command

/-- The word that a command begins with. -/
def verb : Command → String
  | .list => "list"
  | .openScenarioSelect => "select"
  | .openSaveSelect => "saves"
  | .back => "back"
  | .start _ _ => "start"
  | .load _ => "load"
  | .save _ => "save"
  | .delete _ => "delete"
  | .next => "next"
  | .choose _ => "choose"
  | .pause => "pause"
  | .exit => "exit"
  | .history => "history"
  | .rescan => "rescan"
  | .newScenario _ => "new"
  | .edit _ => "edit"
  | .help => "help"
  | .quit => "quit"

/-- What follows the first word of a command. -/
def arguments : Command → List String
  | .list | .openScenarioSelect | .openSaveSelect | .back | .next | .pause | .exit | .history
  | .rescan | .help | .quit | .save none => []
  | .start none player => [player]
  | .start (some scenario) player => [scenario, player]
  | .load name | .save (some name) | .delete name | .newScenario name => [name]
  | .choose index => [numeral index]
  | .edit c => c.verb :: c.arguments

/-- The line of a command. -/
def line (c : Command) : String := phrase (c.verb :: c.arguments)

/-- A name that can be given at the end of a line: something with nothing to trim. -/
structure GivenName (name : String) : Prop where
  ne_empty : name ≠ ""
  trimmed : trim name = name

/-- The commands that can be given: with names that can be given, single words where something
else may follow, and indices in range. -/
def Canonical : Command → Prop
  | .list | .openScenarioSelect | .openSaveSelect | .back | .next | .pause | .exit | .history
  | .rescan | .help | .quit | .save none => True
  | .start none player => IsWord player
  | .start (some scenario) player => IsWord scenario ∧ GivenName player
  | .load name | .save (some name) | .delete name | .newScenario name => GivenName name
  | .choose index => index < maxIndex
  | .edit c => c.Canonical

variable {c : Command}

/-- A command begins with a single word. -/
theorem isWord_verb (c : Command) : IsWord c.verb := by
  cases c <;> rw [verb] <;> decide

/-- The first word of a command is written as it is looked up. -/
theorem keyword_verb (c : Command) : keyword c.verb = c.verb := by
  cases c <;> rw [verb] <;> rfl

/-- What follows the first word of a command that can be given has nothing to trim. -/
theorem trim_arguments (h : c.Canonical) : ∀ s ∈ c.arguments, trim s = s := by
  cases c with
  | list | openScenarioSelect | openSaveSelect | back | next | pause | exit | history | rescan
  | help | quit => simp [arguments]
  | start scenario player =>
    cases scenario with
    | none =>
      have hplayer : IsWord player := h
      simp [arguments, hplayer.trim_eq]
    | some scenario =>
      obtain ⟨hscenario, hplayer⟩ := h
      simp [arguments, hscenario.trim_eq, hplayer.trimmed]
  | load name | delete name | newScenario name =>
    have hname : GivenName name := h
    simp [arguments, hname.trimmed]
  | save name =>
    cases name with
    | none => simp [arguments]
    | some name =>
      have hname : GivenName name := h
      simp [arguments, hname.trimmed]
  | choose index => simp [arguments, (isWord_numeral index).trim_eq]
  | edit c =>
    exact List.forall_mem_cons.mpr ⟨c.isWord_verb.trim_eq, EditCommand.trim_arguments h⟩

/-- A start is read from the player's name, or from the name of a scenario and the player's. -/
theorem start?_phrase {scenario : Option String} {player : String}
    (h : (start scenario player).Canonical) :
    start? (phrase (start scenario player).arguments) = some (start scenario player) := by
  cases scenario with
  | none =>
    have hplayer : IsWord player := h
    have hcut : splitWord (phrase [player]) = (player, "") :=
      splitWord_phrase hplayer (by simp)
    rw [arguments, start?, hcut]
    split
    · next heq => exact absurd (Prod.mk.inj heq).1 hplayer.ne_empty
    · next heq => rw [(Prod.mk.inj heq).1]
    · next hne heq => exact absurd (Prod.mk.inj heq).2.symm hne
  | some scenario =>
    obtain ⟨hscenario, hplayer⟩ := h
    have hcut : splitWord (phrase [scenario, player]) = (scenario, player) := by
      rw [splitWord_phrase hscenario (by simpa using hplayer.trimmed), phrase_singleton]
    rw [arguments, start?, hcut]
    split
    · next heq => exact absurd (Prod.mk.inj heq).1 hscenario.ne_empty
    · next heq => exact absurd (Prod.mk.inj heq).2 hplayer.ne_empty
    · next heq => rw [(Prod.mk.inj heq).1, (Prod.mk.inj heq).2]

theorem nonEmpty?_of_ne_empty {text : String} (h : text ≠ "") : nonEmpty? text = some text := by
  rw [nonEmpty?, if_neg h]

/-- A command that can be given is read from its own line. -/
theorem ofLine?_line (h : c.Canonical) : ofLine? c.line = some c := by
  unfold ofLine?
  rw [line, splitWord_phrase c.isWord_verb (trim_arguments h)]
  dsimp only
  rw [c.keyword_verb]
  cases c with
  | list | openScenarioSelect | openSaveSelect | back | next | pause | exit | history | rescan
  | help | quit => simp only [verb]
  | start scenario player => simpa only [verb] using start?_phrase h
  | load name | delete name | newScenario name =>
    have hname : GivenName name := h
    simp only [verb, arguments]
    rw [phrase_singleton, nonEmpty?_of_ne_empty hname.ne_empty, Option.map_some]
  | save name =>
    cases name with
    | none => rfl
    | some name =>
      have hname : GivenName name := h
      simp only [verb, arguments]
      rw [phrase_singleton, nonEmpty?_of_ne_empty hname.ne_empty]
  | choose index =>
    simp only [verb, arguments]
    rw [phrase_singleton, index?_numeral h, Option.map_some]
  | edit c =>
    simp only [verb, arguments]
    rw [EditCommand.edit?_phrase h, Option.map_some]

/-- What is left of a trimmed text, where something is left, can be given as a name. -/
theorem givenName_of_nonEmpty? {text name : String} (htext : trim text = text)
    (h : nonEmpty? text = some name) : GivenName name := by
  rw [nonEmpty?] at h
  split at h
  · cases h
  · next hne =>
    cases h
    exact ⟨hne, htext⟩

/-- Every start that is read can be given. -/
theorem canonical_of_start? {rest : String} (h : start? rest = some c) : c.Canonical := by
  have hword := @isWord_fst_splitWord rest
  have hrest := trim_snd_splitWord rest
  rw [start?] at h
  generalize splitWord rest = cut at h hword hrest
  obtain ⟨first, remainder⟩ := cut
  dsimp only at hword hrest
  split at h
  case h_1 => cases h
  case h_2 hplayer heq =>
    cases heq
    cases h
    exact hword hplayer
  case h_3 hscenario hplayer heq =>
    cases heq
    cases h
    exact ⟨hword hscenario, hplayer, hrest⟩

/-- Every command that is read can be given. -/
theorem canonical_of_ofLine? {text : String} (h : ofLine? text = some c) : c.Canonical := by
  have hrest := trim_snd_splitWord text
  unfold ofLine? at h
  generalize splitWord text = cut at h hrest
  obtain ⟨word, rest⟩ := cut
  dsimp only at h hrest
  split at h
  case h_8 => exact canonical_of_start? h
  case h_9 | h_11 | h_17 =>
    obtain ⟨name, hname, rfl⟩ := Option.map_eq_some_iff.mp h
    exact givenName_of_nonEmpty? hrest hname
  case h_10 =>
    cases h
    cases hname : nonEmpty? rest with
    | none => trivial
    | some name => exact givenName_of_nonEmpty? hrest hname
  case h_12 =>
    obtain ⟨index, hindex, rfl⟩ := Option.map_eq_some_iff.mp h
    exact lt_of_index?_eq_some hindex
  case h_18 =>
    obtain ⟨c, hc, rfl⟩ := Option.map_eq_some_iff.mp h
    exact EditCommand.canonical_of_edit? hc
  case h_23 => cases h
  all_goals
    cases h
    trivial

/-- A line is read as a command just if its trimmed text is. -/
theorem parse_eq_ok_iff {text : String} : parse text = .ok c ↔ ofLine? (trim text) = some c := by
  unfold parse
  dsimp only
  generalize ofLine? (trim text) = result
  cases result <;> simp

/-- A line that is refused is refused with its trimmed text. -/
theorem eq_of_parse_eq_error {text : String} {failure : Failure}
    (h : parse text = .error failure) : failure = .invalidCommand (trim text) := by
  unfold parse at h
  dsimp only at h
  generalize ofLine? (trim text) = result at h
  cases result with
  | none => exact (Except.error.inj h).symm
  | some _ => cases h

/-- The line of a command that can be given has nothing to trim. -/
theorem trim_line (h : c.Canonical) : trim c.line = c.line :=
  trim_phrase (List.forall_mem_cons.mpr ⟨c.isWord_verb.trim_eq, trim_arguments h⟩)

/-- A command that can be given is read from its line. -/
theorem parse_line (h : c.Canonical) : parse c.line = .ok c := by
  rw [parse_eq_ok_iff, trim_line h]
  exact ofLine?_line h

/-- Lines have a normal form. A line that is a command means the same as the command's own line,
the commands that are read from their own lines are exactly those that can be given, and a line
that is no command is refused, trimmed but otherwise as it is. -/
theorem parse_line_iff_and_refused :
    (∀ text c, parse text = .ok c → parse c.line = .ok c) ∧
    (∀ c : Command, parse c.line = .ok c ↔ c.Canonical) ∧
    ∀ text failure, parse text = .error failure → failure = .invalidCommand (trim text) := by
  refine ⟨fun text c h => ?_, fun c => ⟨fun h => ?_, parse_line⟩,
    fun _ _ => eq_of_parse_eq_error⟩
  · exact parse_line (canonical_of_ofLine? (parse_eq_ok_iff.mp h))
  · exact canonical_of_ofLine? (parse_eq_ok_iff.mp h)

/-- A line with signs, capitals and white space in it is put into its normal form. -/
theorem parse_line_button :
    line (.edit (.choice 2 "Go" "left | a")) = "edit button 3 Go | left | a" ∧
    parse "edit button 3 Go | left | a" = .ok (.edit (.choice 2 "Go" "left | a")) := by
  have hline : line (.edit (.choice 2 "Go" "left | a")) = "edit button 3 Go | left | a" := by
    decide
  refine ⟨hline, ?_⟩
  have h : parse "  EDIT  Button\t+3  Go|left | a " = .ok (.edit (.choice 2 "Go" "left | a")) :=
    rfl
  rw [← hline]
  exact parse_line_iff_and_refused.1 _ _ h

example : line (.edit (.choice 0 "" "main.sc")) = "edit button 1 | main.sc" := by decide

end Command

end VisualNovel
