import VisualNovel.Dialogue
import VisualNovel.Proofs.Text.Replace

/-!
# The player's name in a line

Markers are replaced in two rounds, first those that are closed and then all others, so that
the second round also looks at names which the first one has put in. Here stand the equations of
both rounds and of a single pass, along the markers of a line, and what is special about a name
that no marker can overlap, wherever it stands, and about the marker as a name.
-/

namespace VisualNovel.Dialogue

open Text

/-- The sign that a marker begins with; another one may close it. -/
def sign : Char := '@'

/-- What stands in a marker behind its sign. -/
def markerTail : List Char := "MAINCHARACTERNAME".toList

/-- The characters of a marker. -/
def marker : List Char := sign :: markerTail

/-- A marker with the sign that closes it. -/
def closedMarker : List Char := marker ++ [sign]

/-- One pass over a line, after the given number of characters is skipped: every marker, with
the sign directly behind it if there is one, gives way to the name, and all else is kept. -/
def insertFrom (name : List Char) : Nat → List Char → List Char
  | _, [] => []
  | skip + 1, _ :: cs => insertFrom name skip cs
  | 0, c :: cs =>
    if closedMarker.isPrefixOf (c :: cs) then name ++ insertFrom name (closedMarker.length - 1) cs
    else if marker.isPrefixOf (c :: cs) then name ++ insertFrom name (marker.length - 1) cs
    else c :: insertFrom name 0 cs

/-- A line with a name inserted in one pass from left to right. -/
def insertChars (name line : List Char) : List Char := insertFrom name 0 line

/-- A line with the player's name inserted in one pass. -/
def insertName (line player : String) : String :=
  String.ofList (insertChars player.toList line.toList)

section Pass

variable {name line rest : List Char}

theorem sign_not_mem_markerTail : sign ∉ markerTail := by decide

theorem marker_ne_nil : marker ≠ [] := List.cons_ne_nil _ _

theorem closedMarker_ne_nil : closedMarker ≠ [] := List.cons_ne_nil _ _

/-- Where a closed marker begins there begins a marker. -/
theorem marker_prefix_of_closedMarker (h : closedMarker <+: line) : marker <+: line :=
  (List.prefix_append marker [sign]).trans h

/-- A marker that no sign follows is not closed. -/
theorem not_closedMarker_prefix_append (h : rest.head? ≠ some sign) :
    ¬ closedMarker <+: marker ++ rest := by
  rw [closedMarker, List.prefix_append_right_inj]
  rintro ⟨back, rfl⟩
  exact h rfl

/-- No marker begins behind the sign of a marker and within it. -/
theorem not_marker_prefix_of_suffix {v : List Char} (hv : v <:+ markerTail) (hne : v ≠ []) :
    ¬ marker <+: v ++ rest := by
  obtain ⟨c, v, rfl⟩ := List.exists_cons_of_ne_nil hne
  intro h
  obtain rfl : sign = c := (List.cons_prefix_cons.mp h).1
  exact sign_not_mem_markerTail (hv.subset List.mem_cons_self)

/-- To skip characters is to begin behind them. -/
theorem insertFrom_eq_drop (name : List Char) (skip : Nat) (line : List Char) :
    insertFrom name skip line = insertChars name (line.drop skip) := by
  induction skip generalizing line with
  | zero => rfl
  | succ skip ih =>
    cases line with
    | nil => rfl
    | cons c cs => exact ih cs

@[simp] theorem insertChars_nil : insertChars name [] = [] := rfl

/-- A closed marker gives way together with its closing sign. -/
theorem insertChars_closedMarker_append (name rest : List Char) :
    insertChars name (closedMarker ++ rest) = name ++ insertChars name rest := by
  have hclosed : closedMarker.isPrefixOf (sign :: (markerTail ++ [sign] ++ rest)) = true :=
    List.isPrefixOf_iff_prefix.mpr (List.prefix_append closedMarker rest)
  change insertFrom name 0 (sign :: (markerTail ++ [sign] ++ rest)) = _
  rw [insertFrom, if_pos hclosed, insertFrom_eq_drop]
  exact congrArg (name ++ insertChars name ·) List.drop_left

/-- Any other marker gives way alone. -/
theorem insertChars_marker_append (h : rest.head? ≠ some sign) :
    insertChars name (marker ++ rest) = name ++ insertChars name rest := by
  have hopen : ¬ closedMarker.isPrefixOf (sign :: (markerTail ++ rest)) = true := by
    rw [List.isPrefixOf_iff_prefix]
    exact not_closedMarker_prefix_append h
  have hmarker : marker.isPrefixOf (sign :: (markerTail ++ rest)) = true :=
    List.isPrefixOf_iff_prefix.mpr (List.prefix_append marker rest)
  change insertFrom name 0 (sign :: (markerTail ++ rest)) = _
  rw [insertFrom, if_neg hopen, if_pos hmarker, insertFrom_eq_drop]
  exact congrArg (name ++ insertChars name ·) List.drop_left

/-- A character at which no marker begins is kept. -/
theorem insertChars_cons {c : Char} {cs : List Char} (h : ¬ marker <+: c :: cs) :
    insertChars name (c :: cs) = c :: insertChars name cs := by
  have hclosed : ¬ closedMarker.isPrefixOf (c :: cs) = true := by
    rw [List.isPrefixOf_iff_prefix]
    exact fun hclosed => h (marker_prefix_of_closedMarker hclosed)
  rw [← List.isPrefixOf_iff_prefix] at h
  rw [insertChars, insertFrom, if_neg hclosed, if_neg h]
  rfl

/-- No marker is in what has no sign. -/
theorem marker_not_infix_of_not_mem (h : sign ∉ line) : ¬ marker <:+: line :=
  fun hinside => h (hinside.subset List.mem_cons_self)

/-- A marker that is not closed has no part in one that is. -/
theorem closedMarker_infix_of_append (hrest : rest.head? ≠ some sign)
    (h : closedMarker <:+: marker ++ rest) : closedMarker <:+: rest := by
  have htail : ∀ s, s <:+ markerTail → closedMarker <:+: s ++ rest → closedMarker <:+: rest := by
    intro s
    induction s with
    | nil => exact fun _ h => h
    | cons c s ih =>
      intro hs h
      rcases List.infix_cons_iff.mp h with hbegins | h
      · have hmarker := marker_prefix_of_closedMarker hbegins
        exact absurd hmarker (not_marker_prefix_of_suffix hs (List.cons_ne_nil c s))
      · exact ih ((List.suffix_cons c s).trans hs) h
  rcases List.infix_cons_iff.mp h with hbegins | h
  · exact absurd hbegins (not_closedMarker_prefix_append hrest)
  · exact htail markerTail List.suffix_rfl h

/-- Induction along a line that is cut at its markers. -/
theorem marker_induction {P : List Char → Prop} (nil : P [])
    (closed : ∀ rest, P rest → P (closedMarker ++ rest))
    (opened : ∀ rest, rest.head? ≠ some sign → P rest → P (marker ++ rest))
    (kept : ∀ c cs, ¬ marker <+: c :: cs → P cs → P (c :: cs)) (line : List Char) : P line := by
  induction hn : line.length using Nat.strongRecOn generalizing line with
  | ind n ih =>
    subst hn
    by_cases hmarker : marker <+: line
    · obtain ⟨rest, rfl⟩ := hmarker
      by_cases hsign : rest.head? = some sign
      · obtain ⟨behind, rfl⟩ := List.head?_eq_some_iff.mp hsign
        have hshorter : behind.length < (marker ++ sign :: behind).length := by
          rw [List.length_append, List.length_cons]
          omega
        have hbehind := ih behind.length hshorter behind rfl
        simpa [closedMarker] using closed behind hbehind
      · have hshorter : rest.length < (marker ++ rest).length := by
          rw [List.length_append]
          exact Nat.lt_add_of_pos_left (Nat.succ_pos _)
        exact opened rest hsign (ih rest.length hshorter rest rfl)
    · cases line with
      | nil => exact nil
      | cons c cs => exact kept c cs hmarker (ih cs.length (Nat.lt_succ_self _) cs rfl)

end Pass

/-- What the first round makes of a line. -/
def firstRound (name line : List Char) : List Char := replaceChars closedMarker name line

/-- What both rounds make of a line. -/
def bothRounds (name line : List Char) : List Char :=
  replaceChars marker name (firstRound name line)

theorem toList_nameMarker : nameMarker.toList = marker := by decide

/-- The player's name takes the place of the markers in two rounds. -/
theorem toList_substituteName (line player : String) :
    (substituteName line player).toList = bothRounds player.toList line.toList := by
  rw [substituteName]
  simp only [toList_nameMarker]
  split
  · rw [String.toList_ofList]
    rfl
  · next h =>
    rw [occursIn_iff] at h
    have hopen : ¬ closedMarker <:+: line.toList :=
      fun hinside => h ((List.prefix_append marker [sign]).isInfix.trans hinside)
    rw [bothRounds, firstRound, replaceChars_of_absent hopen, replaceChars_of_absent h]

section Rounds

variable {name line rest : List Char}

/-- The first round puts the name in the place of a closed marker. -/
theorem firstRound_closedMarker_append (name rest : List Char) :
    firstRound name (closedMarker ++ rest) = name ++ firstRound name rest :=
  replaceChars_pattern_append closedMarker_ne_nil rest

/-- The first round leaves a marker that is not closed. -/
theorem firstRound_marker_append (h : rest.head? ≠ some sign) :
    firstRound name (marker ++ rest) = marker ++ firstRound name rest := by
  apply replaceChars_append_of_forall
  intro v hv hne hbegins
  rcases List.suffix_cons_iff.mp hv with rfl | hv
  · exact not_closedMarker_prefix_append h hbegins
  · exact not_marker_prefix_of_suffix hv hne (marker_prefix_of_closedMarker hbegins)

/-- The first round keeps a character at which no marker begins. -/
theorem firstRound_cons {c : Char} {cs : List Char} (h : ¬ marker <+: c :: cs) :
    firstRound name (c :: cs) = c :: firstRound name cs :=
  replaceChars_cons fun hclosed => h (marker_prefix_of_closedMarker hclosed)

/-- The first round leaves what has no sign. -/
theorem firstRound_of_not_mem (h : sign ∉ line) : firstRound name line = line :=
  replaceChars_of_absent fun hinside =>
    marker_not_infix_of_not_mem h ((List.prefix_append marker [sign]).isInfix.trans hinside)

/-- The second round puts the name in the place of a marker. -/
theorem replaceChars_marker_append (name rest : List Char) :
    replaceChars marker name (marker ++ rest) = name ++ replaceChars marker name rest :=
  replaceChars_pattern_append marker_ne_nil rest

/-- Both rounds replace a marker that is not closed once. -/
theorem bothRounds_marker_append (h : rest.head? ≠ some sign) :
    bothRounds name (marker ++ rest) = name ++ bothRounds name rest := by
  rw [bothRounds, firstRound_marker_append h, replaceChars_marker_append, ← bothRounds]

end Rounds

/-- Whether no marker overlaps a name, wherever the name stands. -/
def Unmixed (name : List Char) : Prop :=
  ∀ before behind front back, before ++ name ++ behind = front ++ marker ++ back →
    front.length + marker.length ≤ before.length ∨ before.length + name.length ≤ front.length

section Names

variable {name : List Char}

/-- A name without any character of the marker is one. -/
theorem unmixed_of_all_not_mem (hne : name ≠ []) (h : name.all (· ∉ marker) = true) :
    Unmixed name := by
  intro before behind front back heq
  by_contra hoverlap
  rw [not_or, not_le, not_le] at hoverlap
  have hpos := List.length_pos_iff.mpr hne
  -- both reach over the place where the one of them begins that begins later
  obtain ⟨k, hk⟩ : ∃ k, k = max front.length before.length := ⟨_, rfl⟩
  have hmarker : marker.length = 18 := by decide
  have hname : (before ++ name ++ behind)[k]? = name[k - before.length]? := by
    rw [List.append_assoc, List.getElem?_append_right (by omega),
      List.getElem?_append_left (by omega)]
  have hmark : (before ++ name ++ behind)[k]? = marker[k - front.length]? := by
    rw [heq, List.append_assoc, List.getElem?_append_right (by omega),
      List.getElem?_append_left (by omega)]
  have hshared : name[k - before.length]? = some name[k - before.length] :=
    List.getElem?_eq_getElem (by omega)
  rw [← hname, hmark] at hshared
  exact of_decide_eq_true (List.all_eq_true.mp h _ (List.getElem_mem _))
    (List.mem_of_getElem? hshared)

example : Unmixed "Bob".toList := unmixed_of_all_not_mem (by decide) (by decide)

/-- A marker that begins before such a name ends before it. -/
theorem Unmixed.prefix_of_prefix_append (h : Unmixed name) (front cs : List Char)
    (hfront : front ≠ []) (hmarker : marker <+: front ++ (name ++ cs)) : marker <+: front := by
  obtain ⟨back, hback⟩ := hmarker
  have happart := h front cs [] back (by simpa using hback.symm)
  have hpos := List.length_pos_iff.mpr hfront
  rw [List.length_nil] at happart
  have hle : marker.length ≤ front.length := by omega
  exact List.prefix_of_prefix_length_le ⟨back, hback⟩ (List.prefix_append _ _) hle

/-- With such a name, a marker that begins before what the first round makes of a line begins
before the line itself. -/
theorem Unmixed.prefix_of_prefix_firstRound (h : Unmixed name) {front cs : List Char}
    (hfront : front ≠ []) (hmarker : marker <+: front ++ firstRound name cs) :
    marker <+: front ++ cs := by
  induction cs using occurrence_induction closedMarker_ne_nil generalizing front with
  | nil => exact hmarker
  | found rest _ =>
    rw [firstRound_closedMarker_append] at hmarker
    exact (h.prefix_of_prefix_append front _ hfront hmarker).trans (List.prefix_append _ _)
  | kept c cs hc ih =>
    rw [firstRound, replaceChars_cons hc, ← firstRound] at hmarker
    have hlonger := ih (show front ++ [c] ≠ [] by simp) (by simpa using hmarker)
    simpa using hlonger

/-- So the first round brings no marker about at a character that is kept. -/
theorem Unmixed.not_marker_prefix_cons (h : Unmixed name) {c : Char} {cs : List Char}
    (hc : ¬ marker <+: c :: cs) : ¬ marker <+: c :: firstRound name cs :=
  fun hmarker => hc (h.prefix_of_prefix_firstRound (List.cons_ne_nil c []) hmarker)

/-- No marker begins in such a name. -/
theorem Unmixed.not_marker_prefix_append (h : Unmixed name) (cs v : List Char) (hv : v <:+ name)
    (hne : v ≠ []) : ¬ marker <+: v ++ cs := by
  obtain ⟨front, rfl⟩ := hv
  rintro ⟨back, hback⟩
  have happart := h [] cs front back (by simp [hback])
  have hpos := List.length_pos_iff.mpr hne
  simp only [List.length_nil, List.length_append, marker, List.length_cons] at happart
  omega

/-- The marker itself is inserted in every line, as it is only replaced by itself. -/
theorem bothRounds_marker (line : List Char) :
    bothRounds marker line = insertChars marker line := by
  rw [bothRounds, replaceChars_self marker_ne_nil]
  induction line using marker_induction with
  | nil => rfl
  | closed rest ih => rw [firstRound_closedMarker_append, insertChars_closedMarker_append, ih]
  | opened rest hrest ih =>
    rw [firstRound_marker_append hrest, insertChars_marker_append hrest, ih]
  | kept c cs hc ih => rw [firstRound_cons hc, insertChars_cons hc, ih]

end Names

end VisualNovel.Dialogue
