import VisualNovel.Proofs.Dialogue.PlayerName

/-!
# Markers that a name brings about

A name that is put in for a closed marker may hold a marker of its own, or bring one together
with what stands beside it. Both rounds come to one pass exactly if there are no such markers,
or if the name is the marker: if there is one more, the second round changes it, and the two
results differ in length, or where that marker stands. From this follows which names can be
inserted in every line, and which lines take every name.
-/

namespace VisualNovel.Dialogue

open Text

/-- The number of places of a text at which a marker begins. -/
def markersIn (s : List Char) : Nat := s.tails.countP (marker.isPrefixOf ·)

section Count

variable {s t name : List Char}

@[simp] theorem markersIn_nil : markersIn [] = 0 := by decide

/-- A character in front of a text adds a marker just if one begins there. -/
theorem markersIn_cons (c : Char) (cs : List Char) :
    markersIn (c :: cs) = markersIn cs + if marker <+: c :: cs then 1 else 0 := by
  simp only [markersIn, List.tails_cons, List.countP_cons, List.isPrefixOf_iff_prefix]

/-- Where no marker begins, there is none to count. -/
theorem markersIn_append_of_forall (h : ∀ v, v <:+ s → v ≠ [] → ¬ marker <+: v ++ t) :
    markersIn (s ++ t) = markersIn t := by
  induction s with
  | nil => rfl
  | cons c s ih =>
    have hc : ¬ marker <+: c :: (s ++ t) := h (c :: s) List.suffix_rfl (List.cons_ne_nil c s)
    have hs := ih fun v hv => h v (hv.trans (List.suffix_cons c s))
    rw [List.cons_append, markersIn_cons, if_neg hc, hs, Nat.add_zero]

/-- A text has at least the markers of what it ends in. -/
theorem markersIn_le_append (s t : List Char) : markersIn t ≤ markersIn (s ++ t) := by
  induction s with
  | nil => exact Nat.le_refl _
  | cons c s ih =>
    rw [List.cons_append, markersIn_cons]
    exact Nat.le_add_right_of_le ih

/-- If nothing more is counted with a text before it, no marker begins in that text. -/
theorem forall_of_markersIn_append (h : markersIn (s ++ t) = markersIn t) :
    ∀ v, v <:+ s → v ≠ [] → ¬ marker <+: v ++ t := by
  induction s with
  | nil =>
    intro v hv hne
    exact absurd (List.suffix_nil.mp hv) hne
  | cons c s ih =>
    intro v hv hne hmarker
    have hle := markersIn_le_append s t
    rw [List.cons_append, markersIn_cons] at h
    rcases List.suffix_cons_iff.mp hv with rfl | hv
    · rw [List.cons_append] at hmarker
      rw [if_pos hmarker] at h
      omega
    · exact ih (by omega) v hv hne hmarker

/-- A marker in front of a text is one marker more. -/
theorem markersIn_marker_append (rest : List Char) :
    markersIn (marker ++ rest) = markersIn rest + 1 := by
  have htail : markersIn (markerTail ++ rest) = markersIn rest :=
    markersIn_append_of_forall fun _ hv hne => not_marker_prefix_of_suffix hv hne
  have hmarker : marker <+: sign :: (markerTail ++ rest) := List.prefix_append marker rest
  rw [marker, List.cons_append, markersIn_cons, if_pos hmarker, htail]

/-- Where the sign does not come there is no marker. -/
theorem markersIn_of_not_mem (h : sign ∉ s) : markersIn s = 0 := by
  have hnone : markersIn (s ++ []) = markersIn [] :=
    markersIn_append_of_forall fun v hv _ hmarker =>
      h (hv.subset ((List.append_nil v ▸ hmarker).subset List.mem_cons_self))
  simpa using hnone

/-- With every marker that is replaced, the length changes by the same. -/
theorem length_replaceChars_marker (name s : List Char) :
    (replaceChars marker name s).length + marker.length * markersIn s =
      s.length + name.length * markersIn s := by
  induction s using occurrence_induction marker_ne_nil with
  | nil => simp
  | found rest ih =>
    rw [replaceChars_marker_append, markersIn_marker_append, List.length_append,
      List.length_append, Nat.mul_add, Nat.mul_add]
    omega
  | kept c cs hc ih =>
    rw [replaceChars_cons hc, markersIn_cons, if_neg hc, Nat.add_zero, List.length_cons,
      List.length_cons]
    omega

end Count

/-- The number of markers of a line that are not closed: those that are left if every closed
one gives way to a space. -/
def openMarkers (line : List Char) : Nat := markersIn (firstRound [' '] line)

section Open

variable {name line rest : List Char}

/-- No marker overlaps a space. -/
theorem unmixed_space : Unmixed [' '] := unmixed_of_all_not_mem (by decide) (by decide)

/-- A closed marker in front of a line is not an open one. -/
theorem openMarkers_closedMarker_append (rest : List Char) :
    openMarkers (closedMarker ++ rest) = openMarkers rest := by
  have hspace : ∀ cs, ¬ marker <+: ' ' :: cs := fun cs h => by
    have hsign := (List.cons_prefix_cons.mp h).1
    exact absurd hsign (by decide)
  rw [openMarkers, firstRound_closedMarker_append, List.singleton_append, markersIn_cons,
    if_neg (hspace _)]
  rfl

/-- A marker that no sign closes is an open one. -/
theorem openMarkers_marker_append (h : rest.head? ≠ some sign) :
    openMarkers (marker ++ rest) = openMarkers rest + 1 := by
  rw [openMarkers, firstRound_marker_append h, markersIn_marker_append]
  rfl

/-- A character at which no marker begins adds no open one. -/
theorem openMarkers_cons {c : Char} {cs : List Char} (h : ¬ marker <+: c :: cs) :
    openMarkers (c :: cs) = openMarkers cs := by
  rw [openMarkers, firstRound_cons h, markersIn_cons,
    if_neg (unmixed_space.not_marker_prefix_cons h)]
  rfl

/-- No name makes fewer markers of a line. -/
theorem openMarkers_le (name line : List Char) :
    openMarkers line ≤ markersIn (firstRound name line) := by
  induction line using marker_induction with
  | nil => exact Nat.le_refl _
  | closed rest ih =>
    rw [openMarkers_closedMarker_append, firstRound_closedMarker_append]
    exact ih.trans (markersIn_le_append _ _)
  | opened rest hrest ih =>
    rw [openMarkers_marker_append hrest, firstRound_marker_append hrest, markersIn_marker_append]
    exact Nat.succ_le_succ ih
  | kept c cs hc ih =>
    rw [openMarkers_cons hc, firstRound_cons hc]
    exact ih.trans (markersIn_le_append [c] _)

/-- In one pass, the length changes by the same with every marker that is not closed. -/
theorem length_insertChars (name line : List Char) :
    (insertChars name line).length + marker.length * openMarkers line =
      (firstRound name line).length + name.length * openMarkers line := by
  induction line using marker_induction with
  | nil => rfl
  | closed rest ih =>
    rw [insertChars_closedMarker_append, openMarkers_closedMarker_append,
      firstRound_closedMarker_append, List.length_append, List.length_append]
    omega
  | opened rest hrest ih =>
    rw [insertChars_marker_append hrest, openMarkers_marker_append hrest,
      firstRound_marker_append hrest, List.length_append, List.length_append, Nat.mul_add,
      Nat.mul_add]
    omega
  | kept c cs hc ih =>
    rw [insertChars_cons hc, openMarkers_cons hc, firstRound_cons hc, List.length_cons,
      List.length_cons]
    omega

end Open

section Agree

variable {name line : List Char}

/-- If the name brings no marker about, the second round only replaces markers of the line. -/
theorem bothRounds_eq_of_markersIn_eq (h : markersIn (firstRound name line) = openMarkers line) :
    bothRounds name line = insertChars name line := by
  induction line using marker_induction with
  | nil => rfl
  | closed rest ih =>
    rw [firstRound_closedMarker_append, openMarkers_closedMarker_append] at h
    have hle := openMarkers_le name rest
    have hname := markersIn_le_append name (firstRound name rest)
    have hfree := forall_of_markersIn_append (s := name) (t := firstRound name rest) (by omega)
    rw [bothRounds, firstRound_closedMarker_append, replaceChars_append_of_forall hfree,
      ← bothRounds, ih (by omega), insertChars_closedMarker_append]
  | opened rest hrest ih =>
    rw [firstRound_marker_append hrest, markersIn_marker_append,
      openMarkers_marker_append hrest] at h
    rw [bothRounds_marker_append hrest, ih (Nat.succ_inj.mp h), insertChars_marker_append hrest]
  | kept c cs hc ih =>
    rw [firstRound_cons hc, openMarkers_cons hc, markersIn_cons] at h
    have hle := openMarkers_le name cs
    have hkept : ¬ marker <+: c :: firstRound name cs := fun hmarker => by
      rw [if_pos hmarker] at h
      omega
    rw [if_neg hkept] at h
    rw [bothRounds, firstRound_cons hc, replaceChars_cons hkept, ← bothRounds, ih h,
      insertChars_cons hc]

/-- What the first round begins with before any sign, one pass begins with as well. -/
theorem prefix_insertChars_of_prefix_firstRound {s : List Char} (hs : sign ∉ s)
    (h : s <+: firstRound name line) : s <+: insertChars name line := by
  induction line using marker_induction generalizing s with
  | nil => exact h
  | closed rest ih =>
    rw [firstRound_closedMarker_append] at h
    rw [insertChars_closedMarker_append]
    rcases prefix_append_cases h with hname | ⟨r, -, rfl, hrest⟩
    · exact hname.trans (List.prefix_append _ _)
    · have hr : sign ∉ r := fun hsign => hs (List.mem_append_right _ hsign)
      exact (List.prefix_append_right_inj name).mpr (ih hr hrest)
  | opened rest hrest ih =>
    rw [firstRound_marker_append hrest] at h
    cases s with
    | nil => exact List.nil_prefix
    | cons d s =>
      obtain rfl : d = sign := (List.cons_prefix_cons.mp h).1
      exact absurd List.mem_cons_self hs
  | kept c cs hc ih =>
    rw [firstRound_cons hc] at h
    rw [insertChars_cons hc]
    cases s with
    | nil => exact List.nil_prefix
    | cons d s =>
      obtain ⟨rfl, hcs⟩ := List.cons_prefix_cons.mp h
      have hs' : sign ∉ s := fun hsign => hs (List.mem_cons_of_mem _ hsign)
      exact List.cons_prefix_cons.mpr ⟨rfl, ih hs' hcs⟩

/-- So a marker that begins before the first round's line begins before that of one pass. -/
theorem marker_prefix_append_insertChars {v : List Char} (hv : v ≠ [])
    (h : marker <+: v ++ firstRound name line) : marker <+: v ++ insertChars name line := by
  rcases prefix_append_cases h with h | ⟨r, -, hmarker, hr⟩
  · exact h.trans (List.prefix_append _ _)
  · obtain ⟨c, v, rfl⟩ := List.exists_cons_of_ne_nil hv
    have htail : markerTail = v ++ r := (List.cons.inj hmarker).2
    have hsign : sign ∉ r := fun hsign =>
      sign_not_mem_markerTail (htail ▸ List.mem_append_right v hsign)
    rw [hmarker, List.prefix_append_right_inj]
    exact prefix_insertChars_of_prefix_firstRound hsign hr

/-- A name as long as the marker that brings a marker about, and yet agrees, is the marker: it
stands in one result where the marker stands in the other. -/
theorem eq_marker_of_markersIn_ne (hlength : name.length = marker.length)
    (hsame : bothRounds name line = insertChars name line)
    (hcount : markersIn (firstRound name line) ≠ openMarkers line) : name = marker := by
  -- the name put in for the first marker that is not the line's own
  have hfound {v back rest : List Char} (hv : v ≠ [])
      (hmarker : marker <+: v ++ firstRound name rest)
      (heq : name ++ back = v ++ insertChars name rest) : name = marker := by
    have hbegins : marker <+: name ++ back := heq ▸ marker_prefix_append_insertChars hv hmarker
    have hmarker := List.prefix_of_prefix_length_le hbegins (List.prefix_append _ _) hlength.ge
    exact (hmarker.eq_of_length hlength.symm).symm
  induction line using marker_induction with
  | nil => exact absurd rfl hcount
  | closed rest ih =>
    rw [firstRound_closedMarker_append, openMarkers_closedMarker_append] at hcount
    rw [bothRounds, firstRound_closedMarker_append, insertChars_closedMarker_append] at hsame
    by_cases hfree : ∀ v, v <:+ name → v ≠ [] → ¬ marker <+: v ++ firstRound name rest
    · rw [markersIn_append_of_forall hfree] at hcount
      rw [replaceChars_append_of_forall hfree, List.append_right_inj] at hsame
      exact ih hsame hcount
    · simp only [not_forall, not_not] at hfree
      obtain ⟨v, ⟨front, hsplit⟩, hv, hmarker⟩ := hfree
      obtain ⟨back, hback⟩ := hmarker
      have hshorter : ¬ marker <:+: front := fun hinside => by
        have hle := hinside.length_le
        have hpos := List.length_pos_iff.mpr hv
        rw [← hlength, ← hsplit, List.length_append] at hle
        omega
      have hbefore : name ++ firstRound name rest = front ++ (marker ++ back) := by
        rw [hback, ← List.append_assoc, hsplit]
      have hafter : name ++ insertChars name rest = front ++ (v ++ insertChars name rest) := by
        rw [← List.append_assoc, hsplit]
      rw [hbefore, hafter, marker, replaceChars_append_pattern_append sign_not_mem_markerTail,
        ← marker, replaceChars_of_absent hshorter, List.append_right_inj] at hsame
      exact hfound hv ⟨back, hback⟩ hsame
  | opened rest hrest ih =>
    rw [firstRound_marker_append hrest, markersIn_marker_append,
      openMarkers_marker_append hrest] at hcount
    rw [bothRounds_marker_append hrest, insertChars_marker_append hrest,
      List.append_right_inj] at hsame
    exact ih hsame fun h => hcount (congrArg (· + 1) h)
  | kept c cs hc ih =>
    rw [firstRound_cons hc, openMarkers_cons hc, markersIn_cons] at hcount
    rw [bothRounds, firstRound_cons hc, insertChars_cons hc] at hsame
    by_cases hmarker : marker <+: c :: firstRound name cs
    · obtain ⟨back, hback⟩ := hmarker
      rw [← hback, replaceChars_marker_append] at hsame
      exact hfound (List.cons_ne_nil c []) ⟨back, hback⟩ hsame
    · rw [if_neg hmarker] at hcount
      rw [replaceChars_cons hmarker, List.cons.injEq] at hsame
      exact ih hsame.2 hcount

/-- Both rounds come to one pass exactly if the name is the marker, or brings none about. -/
theorem bothRounds_eq_insertChars_iff (name line : List Char) :
    bothRounds name line = insertChars name line ↔
      name = marker ∨ markersIn (firstRound name line) = openMarkers line := by
  constructor
  · intro hsame
    by_cases hcount : markersIn (firstRound name line) = openMarkers line
    · exact Or.inr hcount
    obtain ⟨more, hmore⟩ := Nat.exists_eq_add_of_le (openMarkers_le name line)
    have htwice := length_replaceChars_marker name (firstRound name line)
    have honce := length_insertChars name line
    rw [← bothRounds, hsame, hmore, Nat.mul_add, Nat.mul_add] at htwice
    have hmarkers : name.length * more = marker.length * more := by omega
    have hlength := Nat.eq_of_mul_eq_mul_right (by omega) hmarkers
    exact Or.inl (eq_marker_of_markersIn_ne hlength hsame hcount)
  · rintro (rfl | hcount)
    · exact bothRounds_marker line
    · exact bothRounds_eq_of_markersIn_eq hcount

end Agree

section Names

variable {name : List Char}

/-- A name that no marker overlaps brings none about. -/
theorem Unmixed.markersIn_firstRound (h : Unmixed name) (line : List Char) :
    markersIn (firstRound name line) = openMarkers line := by
  induction line using marker_induction with
  | nil => rfl
  | closed rest ih =>
    rw [firstRound_closedMarker_append, openMarkers_closedMarker_append,
      markersIn_append_of_forall (h.not_marker_prefix_append _), ih]
  | opened rest hrest ih =>
    rw [firstRound_marker_append hrest, openMarkers_marker_append hrest, markersIn_marker_append,
      ih]
  | kept c cs hc ih =>
    rw [firstRound_cons hc, openMarkers_cons hc, markersIn_cons,
      if_neg (h.not_marker_prefix_cons hc), ih, Nat.add_zero]

/-- On the left of a marker that overlaps a name, at most a beginning of the marker is needed. -/
theorem exists_left {before behind front back : List Char}
    (heq : before ++ (name ++ behind) = front ++ (marker ++ back))
    (hbefore : before.length < front.length + marker.length)
    (hfront : front.length < before.length + name.length) :
    ∃ left start, left ++ (name ++ behind) = start ++ (marker ++ back) ∧ left <+: marker ∧
      left ≠ marker ∧ start.length < left.length + name.length := by
  rcases List.append_eq_append_iff.mp heq with ⟨start, rfl, hname⟩ | ⟨left, rfl, hmarker⟩
  · refine ⟨[], start, hname, List.nil_prefix, marker_ne_nil.symm, ?_⟩
    simpa using hfront
  · have hshorter : left.length < marker.length := by simpa using hbefore
    have hleft : left <+: marker ++ back := ⟨name ++ behind, hmarker.symm⟩
    refine ⟨left, [], hmarker.symm, ?_, fun he => by simp [he] at hshorter, ?_⟩
    · exact List.prefix_of_prefix_length_le hleft (List.prefix_append _ _) hshorter.le
    · rw [List.length_append] at hfront
      rw [List.length_nil]
      omega

/-- Where a marker overlaps a name, the two stand in a text that has at most a beginning of the
marker before the name, and no sign behind it. -/
theorem exists_overlap (h : ¬ Unmixed name) :
    ∃ left right start rest, left ++ (name ++ right) = start ++ (marker ++ rest) ∧
      left <+: marker ∧ left ≠ marker ∧ sign ∉ right := by
  simp only [Unmixed, not_forall, not_or, not_le] at h
  obtain ⟨before, behind, front, back, heq, hbefore, hfront⟩ := h
  rw [List.append_assoc, List.append_assoc] at heq
  obtain ⟨left, start, heq, hleft, hne, hstart⟩ := exists_left heq hbefore hfront
  rw [← List.append_assoc, ← List.append_assoc] at heq
  rcases List.append_eq_append_iff.mp heq with ⟨right, hright, rfl⟩ | ⟨rest, hrest, rfl⟩
  · refine ⟨left, right, start, [], by simpa using hright.symm, hleft, hne, ?_⟩
    have hlength := congrArg List.length hright
    simp only [List.length_append] at hlength
    have hshorter : right.length < marker.length := by omega
    have hsuffix : right <:+ start ++ marker := ⟨left ++ name, hright.symm⟩
    have hmarker : right <:+ marker :=
      List.suffix_of_suffix_length_le hsuffix (List.suffix_append _ _) hshorter.le
    rcases List.suffix_cons_iff.mp hmarker with rfl | htail
    · exact absurd hshorter (Nat.lt_irrefl _)
    · exact fun hsign => sign_not_mem_markerTail (htail.subset hsign)
  · exact ⟨left, [], start, rest, by simpa using hrest, hleft, hne, List.not_mem_nil⟩

/-- No marker begins in a proper beginning of a marker that a marker follows. -/
theorem not_marker_prefix_of_beginning {left v cs : List Char} (hleft : left <+: marker)
    (hne : left ≠ marker) (hv : v <:+ left) (hvne : v ≠ []) :
    ¬ marker <+: v ++ (marker ++ cs) := by
  obtain ⟨rest, hrest⟩ := hleft
  rcases left with _ | ⟨c, front⟩
  · exact absurd (List.suffix_nil.mp hv) hvne
  obtain ⟨rfl, htail⟩ := List.cons.inj hrest
  have hrestne : rest ≠ [] := by
    rintro rfl
    exact hne (by simpa using hrest)
  rcases List.suffix_cons_iff.mp hv with rfl | hv
  · obtain ⟨d, rest, rfl⟩ := List.exists_cons_of_ne_nil hrestne
    intro hmarker
    rw [← hrest, List.prefix_append_right_inj] at hmarker
    obtain rfl : d = sign := (List.cons_prefix_cons.mp hmarker).1
    exact sign_not_mem_markerTail (by simp [← htail])
  · intro hmarker
    obtain ⟨d, v, rfl⟩ := List.exists_cons_of_ne_nil hvne
    obtain rfl : sign = d := (List.cons_prefix_cons.mp hmarker).1
    exact sign_not_mem_markerTail (htail ▸ List.mem_append_left _ (hv.subset List.mem_cons_self))

/-- A name that is inserted in every line is the marker, or no marker overlaps it. -/
theorem eq_marker_or_unmixed (h : ∀ line, bothRounds name line = insertChars name line) :
    name = marker ∨ Unmixed name := by
  by_cases hmixed : Unmixed name
  · exact Or.inr hmixed
  obtain ⟨left, right, start, rest, heq, hleft, hne, hright⟩ := exists_overlap hmixed
  have hfirst (new : List Char) :
      firstRound new (left ++ (closedMarker ++ right)) = left ++ (new ++ right) := by
    have hkept : firstRound new (left ++ (closedMarker ++ right)) =
        left ++ firstRound new (closedMarker ++ right) := by
      apply replaceChars_append_of_forall
      intro v hv hvne hclosed
      have hmarker := marker_prefix_of_closedMarker hclosed
      rw [closedMarker, List.append_assoc] at hmarker
      exact not_marker_prefix_of_beginning hleft hne hv hvne hmarker
    rw [hkept, firstRound_closedMarker_append, firstRound_of_not_mem hright]
  have hnone : markersIn (left ++ ([' '] ++ right)) = 0 := by
    have hspace : sign ∉ [' '] ++ right := by
      rw [List.mem_append, not_or]
      exact ⟨by decide, hright⟩
    rw [← markersIn_of_not_mem hspace]
    apply markersIn_append_of_forall
    intro v hv hvne hmarker
    have hinside := unmixed_space.prefix_of_prefix_append v right hvne hmarker
    have hle := (hinside.isInfix.trans hv.isInfix).length_le
    exact hne (hleft.eq_of_length (le_antisymm hleft.length_le hle))
  rcases (bothRounds_eq_insertChars_iff name _).mp (h _) with hname | hcount
  · exact Or.inl hname
  · have hle := markersIn_le_append start (marker ++ rest)
    rw [openMarkers, hfirst, hfirst, hnone, heq] at hcount
    rw [hcount, markersIn_marker_append] at hle
    exact absurd hle (Nat.not_succ_le_zero _)

end Names

/-- Of two markers put in for a closed one, at least one is too many. -/
theorem openMarkers_lt_of_closed {line : List Char} (h : closedMarker <:+: line) :
    openMarkers line < markersIn (firstRound (marker ++ marker) line) := by
  induction line using marker_induction with
  | nil => exact absurd (List.infix_nil.mp h) closedMarker_ne_nil
  | closed rest _ =>
    have hle := openMarkers_le (marker ++ marker) rest
    rw [openMarkers_closedMarker_append, firstRound_closedMarker_append, List.append_assoc,
      markersIn_marker_append, markersIn_marker_append]
    omega
  | opened rest hrest ih =>
    rw [openMarkers_marker_append hrest, firstRound_marker_append hrest, markersIn_marker_append]
    exact Nat.succ_lt_succ (ih (closedMarker_infix_of_append hrest h))
  | kept c cs hc ih =>
    rw [openMarkers_cons hc, firstRound_cons hc]
    rcases List.infix_cons_iff.mp h with hbegins | h
    · exact absurd (marker_prefix_of_closedMarker hbegins) hc
    · exact (ih h).trans_le (markersIn_le_append [c] _)

/-- In a line without a closed marker, no name has a place to bring a marker about. -/
theorem markersIn_firstRound_of_open {name line : List Char} (h : ¬ closedMarker <:+: line) :
    markersIn (firstRound name line) = openMarkers line := by
  rw [openMarkers, firstRound, firstRound, replaceChars_of_absent h, replaceChars_of_absent h]

/-- The program and the one pass agree on two texts just if they agree on their characters. -/
theorem substituteName_eq_insertName (line player : String) :
    substituteName line player = insertName line player ↔
      bothRounds player.toList line.toList = insertChars player.toList line.toList := by
  rw [← String.toList_inj, toList_substituteName, insertName, String.toList_ofList]

/-- A name is inserted in one pass into a line exactly if it is the marker, or if as many markers
are left with it in place of the closed ones as with a space there. It is for every line exactly
if it is the marker or no marker can overlap it; and a line takes every name in one pass exactly
if it has no closed marker. -/
theorem substituteName_eq_insertName_iff (line player : String) :
    (substituteName line player = insertName line player ↔
      player = nameMarker ∨
        markersIn (firstRound player.toList line.toList) = openMarkers line.toList) ∧
    ((∀ anyLine, substituteName anyLine player = insertName anyLine player) ↔
      player = nameMarker ∨ Unmixed player.toList) ∧
    ((∀ anyPlayer, substituteName line anyPlayer = insertName line anyPlayer) ↔
      ¬ closedMarker <:+: line.toList) := by
  have hmarker : player = nameMarker ↔ player.toList = marker := by
    rw [← String.toList_inj, toList_nameMarker]
  simp only [substituteName_eq_insertName, hmarker]
  refine ⟨bothRounds_eq_insertChars_iff _ _, ⟨?_, ?_⟩, ⟨?_, ?_⟩⟩
  · intro h
    apply eq_marker_or_unmixed
    intro line
    simpa using h (String.ofList line)
  · intro h line
    apply (bothRounds_eq_insertChars_iff _ _).mpr
    exact h.imp_right fun hunmixed => hunmixed.markersIn_firstRound line.toList
  · intro h hclosed
    have hsame := h (String.ofList (marker ++ marker))
    rw [String.toList_ofList, bothRounds_eq_insertChars_iff] at hsame
    rcases hsame with hmarker | hcount
    · exact absurd hmarker (by decide)
    · exact (openMarkers_lt_of_closed hclosed).ne' hcount
  · intro hopen player
    exact (bothRounds_eq_insertChars_iff _ _).mpr (Or.inr (markersIn_firstRound_of_open hopen))

/-- Of a name that holds a marker, the marker gives way to the name once more. -/
theorem substituteName_ne_insertName :
    let line := "Hi @MAINCHARACTERNAME@, welcome"
    let player := "x@MAINCHARACTERNAME"
    substituteName line player = "Hi xx@MAINCHARACTERNAME, welcome" ∧
      insertName line player = "Hi x@MAINCHARACTERNAME, welcome" ∧
      substituteName line player ≠ insertName line player := by
  decide

end VisualNovel.Dialogue
