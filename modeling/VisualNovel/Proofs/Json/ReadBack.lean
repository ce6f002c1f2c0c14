import VisualNovel.Proofs.Json.Literal

/-!
# Reading a JSON text back

A value that was written, compactly or on indented lines, is read as it was. Reading a value
takes no more steps than twice the characters that were written for it, one for the value
and one for its place in an array or an object, so that the steps allowed for a whole text
are always enough.
-/

namespace VisualNovel.Json

open Text

/-- A value of which everything is written. -/
inductive Value.Written : Value → Prop where
  | null : Written .null
  | bool (b : Bool) : Written (.bool b)
  | number {n : Number} (h : n.Written) : Written (.number n)
  | text (content : Option String) : Written (.text content)
  | array {items : List Value} (h : ∀ v ∈ items, Written v) : Written (.array items)
  | object {members : List (Option String × Value)} (h : ∀ m ∈ members, Written m.2) :
      Written (.object members)

/-- Everything of a record is written if everything of its members is. -/
theorem Value.Written.record {members : List (String × Value)} (h : ∀ m ∈ members, m.2.Written) :
    (Value.record members).Written := by
  apply Value.Written.object
  intro m hm
  obtain ⟨m', hm', rfl⟩ := List.mem_map.mp hm
  exact h m' hm'

theorem Value.Written.ofNat (n : Nat) : (Value.ofNat n).Written := .number fun _ => rfl

/-- What is no white space is not skipped. -/
theorem skipSpace_cons {c : Char} (h : isSpace c = false) (cs : List Char) :
    skipSpace (c :: cs) = c :: cs := by
  simp [skipSpace, h]

/-- A new line and what indents the next one are skipped. -/
theorem skipSpace_newline (style : Style) (depth : Nat) (cs : List Char) :
    skipSpace (style.newline depth ++ cs) = skipSpace cs := by
  cases style with
  | compact => rfl
  | pretty =>
    have hspace : ∀ c ∈ Style.newline .pretty depth, isSpace c = true := by
      intro c hc
      rcases List.mem_cons.mp hc with rfl | hc
      · rfl
      · rw [List.eq_of_mem_replicate hc]
        rfl
    exact List.dropWhile_append_of_pos hspace

/-- Only what stands behind white space is read. -/
theorem readValue_congr (fuel : Nat) {cs cs' : List Char} (h : skipSpace cs = skipSpace cs') :
    readValue fuel cs = readValue fuel cs' := by
  cases fuel with
  | zero => rfl
  | succ fuel => rw [readValue, readValue, h]

/-- White space in front of items does not change how they are read. -/
theorem readItems_congr (fuel : Nat) {cs cs' : List Char} (h : skipSpace cs = skipSpace cs') :
    readItems fuel cs = readItems fuel cs' := by
  cases fuel with
  | zero => rfl
  | succ fuel => rw [readItems, readItems, readValue_congr fuel h]

/-- White space in front of members does not change how they are read. -/
theorem readMembers_congr (fuel : Nat) {cs cs' : List Char} (h : skipSpace cs = skipSpace cs') :
    readMembers fuel cs = readMembers fuel cs' := by
  cases fuel with
  | zero => rfl
  | succ fuel => rw [readMembers, readMembers, h]

/-- A number ends before what stands behind an item or a member. -/
theorem endsNumber_cons {c : Char} (hc : c ∈ [',', ']', '}']) (cs : List Char) :
    EndsNumber (c :: cs) := by
  intro d hd
  cases hd
  simp only [List.mem_cons, List.not_mem_nil, or_false] at hc
  rcases hc with rfl | rfl | rfl <;> decide

/-- A number ends before a new line. -/
theorem endsNumber_newline (style : Style) (depth : Nat) {cs : List Char} (h : EndsNumber cs) :
    EndsNumber (style.newline depth ++ cs) := by
  cases style with
  | compact => exact h
  | pretty =>
    intro d hd
    cases hd
    decide

/-- The text of a number begins with its sign or with a digit. -/
theorem exists_renderNumber_eq_cons (n : Number) :
    ∃ c cs, renderNumber n = c :: cs ∧ (c = '-' ∨ c.isDigit = true) := by
  obtain ⟨c, ds, hds, hc⟩ := exists_toDigits_eq_cons n.digits
  rw [renderNumber, hds]
  cases n.negative with
  | true =>
    split
    · exact ⟨'-', _, rfl, Or.inl rfl⟩
    · split <;> exact ⟨'-', _, rfl, Or.inl rfl⟩
  | false =>
    split
    · exact ⟨c, _, rfl, Or.inr hc⟩
    · split <;> exact ⟨c, _, rfl, Or.inr hc⟩

/-- Neither a minus nor a digit is white space. -/
theorem isSpace_eq_false {c : Char} (h : c = '-' ∨ c.isDigit = true) : isSpace c = false := by
  cases hspace : isSpace c with
  | false => rfl
  | true =>
    simp only [isSpace, Bool.or_eq_true, beq_iff_eq] at hspace
    rcases hspace with ((rfl | rfl) | rfl) | rfl <;> rcases h with h | h <;> cases h

/-- The text of a value begins neither with white space nor with a closing bracket. -/
theorem exists_renderValue_eq_cons (style : Style) (depth : Nat) (v : Value) :
    ∃ c cs, renderValue style depth v = c :: cs ∧ isSpace c = false ∧ c ≠ ']' ∧ c ≠ '}' := by
  cases v with
  | null => exact ⟨_, _, by rw [renderValue], by decide⟩
  | bool b => cases b <;> exact ⟨_, _, by rw [renderValue], by decide⟩
  | number n =>
    obtain ⟨c, cs, hcs, hc⟩ := exists_renderNumber_eq_cons n
    have hclose : c ≠ ']' ∧ c ≠ '}' := by
      constructor <;>
      · rintro rfl
        rcases hc with hc | hc <;> cases hc
    exact ⟨c, cs, by rw [renderValue, hcs], isSpace_eq_false hc, hclose⟩
  | text content =>
    cases content with
    | none => exact ⟨'"', _, by rw [renderValue, renderText], by decide⟩
    | some s => exact ⟨'"', _, by rw [renderValue, renderText]; rfl, by decide⟩
  | array items =>
    cases items with
    | nil => exact ⟨'[', _, by rw [renderValue], by decide⟩
    | cons v vs => exact ⟨'[', _, by rw [renderValue]; rfl, by decide⟩
  | object members =>
    cases members with
    | nil => exact ⟨'{', _, by rw [renderValue], by decide⟩
    | cons m ms => exact ⟨'{', _, by rw [renderValue]; rfl, by decide⟩

/-- A value that is read back wherever it was written. -/
def ReadBack (style : Style) (v : Value) : Prop :=
  ∀ {depth fuel : Nat} {rest : List Char}, EndsNumber rest →
    2 * (renderValue style depth v).length ≤ fuel + 1 →
      readValue fuel (renderValue style depth v ++ rest) = some (v, rest)

section Values

variable {style : Style} {depth above fuel : Nat} {rest : List Char}

/-- Every value has some text. -/
theorem length_renderValue_pos (style : Style) (depth : Nat) (v : Value) :
    0 < (renderValue style depth v).length := by
  obtain ⟨c, cs, hcs, _⟩ := exists_renderValue_eq_cons style depth v
  rw [hcs]
  exact Nat.succ_pos _

/-- Enough steps to read a value are at least one. -/
theorem exists_fuel {v : Value} (h : 2 * (renderValue style depth v).length ≤ fuel + 1) :
    ∃ f, fuel = f + 1 := by
  have hpos := length_renderValue_pos style depth v
  exact ⟨fuel - 1, by omega⟩

/-- A text that begins with a digit or a sign is read as a number. -/
theorem readValue_of_number {c : Char} (hc : c = '-' ∨ c.isDigit = true) (cs : List Char) :
    readValue (fuel + 1) (c :: cs) = (readNumber (c :: cs)).map fun r => (.number r.1, r.2) := by
  have hother {d : Char} (hd : d = '-' ∨ d.isDigit = true → False) {ds : List Char}
      (h : c :: cs = d :: ds) : False := by
    obtain rfl := (List.cons.inj h).1
    exact hd hc
  rw [readValue, skipSpace_cons (isSpace_eq_false hc)]
  split
  case h_7 => rfl
  all_goals next h => exact (hother (by decide) h).elim

/-- A number is read back. -/
theorem readBack_number {n : Number} (h : n.Written) : ReadBack style (.number n) := by
  intro depth fuel rest hrest hfuel
  obtain ⟨fuel, rfl⟩ := exists_fuel hfuel
  obtain ⟨c, cs, hcs, hc⟩ := exists_renderNumber_eq_cons n
  have hread := readNumber_renderNumber h hrest
  rw [hcs, List.cons_append] at hread
  rw [renderValue, hcs, List.cons_append, readValue_of_number hc, hread, Option.map_some]

/-- A string or null is read back. -/
theorem readBack_text (content : Option String) : ReadBack style (.text content) := by
  intro depth fuel rest hrest hfuel
  obtain ⟨fuel, rfl⟩ := exists_fuel hfuel
  obtain ⟨cs, hcs, hread⟩ := readText_renderText content rest
  rw [renderValue, hcs, readValue, skipSpace_cons (by decide)]
  simp only [hread, Option.map_some]

/-- The items of an array are read up to its end. -/
theorem readItems_renderItems {v : Value} {vs : List Value} (hv : ReadBack style v)
    (hvs : ∀ v ∈ vs, ReadBack style v)
    (hfuel : 2 * ((renderValue style depth v).length + (renderItems style depth vs).length) ≤
      fuel + 1) :
    readItems (fuel + 1) (renderValue style depth v ++
      (renderItems style depth vs ++ (style.newline above ++ ']' :: rest))) =
        some (v :: vs, rest) := by
  induction vs generalizing v fuel with
  | nil =>
    rw [renderItems, List.nil_append, readItems,
      hv (endsNumber_newline style above (endsNumber_cons (by decide) rest)) (by omega)]
    simp only [Option.bind_eq_bind, Option.bind_some, skipSpace_newline,
      skipSpace_cons (c := ']') (by decide)]
  | cons w ws ih =>
    rw [List.forall_mem_cons] at hvs
    simp only [renderItems, List.cons_append, List.append_assoc, List.length_cons,
      List.length_append] at hfuel ⊢
    rw [readItems, hv (endsNumber_cons (by decide) _) (by omega)]
    -- the value has taken a step, and the one that is left begins the items behind it
    have hstep : 2 * (renderValue style depth v).length ≤ fuel + 1 := by omega
    obtain ⟨fuel, rfl⟩ := exists_fuel hstep
    have hrest := @ih fuel w hvs.1 hvs.2 (by omega)
    simp only [Option.bind_eq_bind, Option.bind_some, skipSpace_cons (c := ',') (by decide),
      readItems_congr (fuel + 1) (skipSpace_newline style depth _), hrest, Option.map_some]

/-- What stands between a key and its value. -/
theorem exists_colon_eq (style : Style) (cs : List Char) :
    ∃ ds, style.colon ++ cs = ':' :: ds ∧ skipSpace ds = skipSpace cs := by
  cases style with
  | compact => exact ⟨cs, rfl, rfl⟩
  | pretty => exact ⟨' ' :: cs, rfl, rfl⟩

/-- A member is read together with those behind it, if there are any. -/
theorem readMembers_succ (key : Option String) (fuel : Nat) {v : Value} {cs cs' : List Char}
    (hv : readValue fuel cs = some (v, cs')) :
    (∀ ds, skipSpace cs' = ',' :: ds → readMembers (fuel + 1) (renderText key ++
        (style.colon ++ cs)) = (readMembers fuel ds).map fun r => ((key, v) :: r.1, r.2)) ∧
      ∀ ds, skipSpace cs' = '}' :: ds → readMembers (fuel + 1) (renderText key ++
        (style.colon ++ cs)) = some ([(key, v)], ds) := by
  obtain ⟨es, hes, hskip⟩ := exists_colon_eq style cs
  obtain ⟨ks, hks, hread⟩ := readText_renderText key (style.colon ++ cs)
  rw [hes] at hread
  rw [hks, readMembers, skipSpace_cons (by decide)]
  constructor
  · intro ds hds
    simp only [hread, Option.bind_eq_bind, Option.bind_some, skipSpace_cons (c := ':') (by decide),
      readValue_congr fuel hskip, hv, hds]
  · intro ds hds
    simp only [hread, Option.bind_eq_bind, Option.bind_some, skipSpace_cons (c := ':') (by decide),
      readValue_congr fuel hskip, hv, hds]

/-- The members of an object are read up to its end. -/
theorem readMembers_renderMembers {key : Option String} {v : Value}
    {ms : List (Option String × Value)} (hv : ReadBack style v)
    (hms : ∀ m ∈ ms, ReadBack style m.2)
    (hfuel : 2 * ((renderValue style depth v).length + (renderMembers style depth ms).length) ≤
      fuel + 1) :
    readMembers (fuel + 1) (renderText key ++ (style.colon ++ (renderValue style depth v ++
      (renderMembers style depth ms ++ (style.newline above ++ '}' :: rest))))) =
        some ((key, v) :: ms, rest) := by
  induction ms generalizing key v fuel with
  | nil =>
    have hend : EndsNumber (style.newline above ++ '}' :: rest) :=
      endsNumber_newline style above (endsNumber_cons (by decide) rest)
    rw [renderMembers, List.nil_append]
    apply (readMembers_succ key fuel (hv hend (by omega))).2
    rw [skipSpace_newline, skipSpace_cons (by decide)]
  | cons m ms ih =>
    rw [List.forall_mem_cons] at hms
    simp only [renderMembers, List.cons_append, List.append_assoc, List.length_cons,
      List.length_append] at hfuel ⊢
    rw [(readMembers_succ key fuel (hv (endsNumber_cons (by decide) _) (by omega))).1 _
      (skipSpace_cons (by decide) _)]
    have hstep : 2 * (renderValue style depth v).length ≤ fuel + 1 := by omega
    obtain ⟨fuel, rfl⟩ := exists_fuel hstep
    have hrest := @ih fuel m.1 m.2 hms.1 hms.2 (by omega)
    rw [readMembers_congr (fuel + 1) (skipSpace_newline style depth _), hrest, Option.map_some]

/-- An array is read back if its items are. -/
theorem readBack_array {items : List Value} (h : ∀ v ∈ items, ReadBack style v) :
    ReadBack style (.array items) := by
  intro depth fuel rest hrest hfuel
  obtain ⟨fuel, rfl⟩ := exists_fuel hfuel
  cases items with
  | nil =>
    rw [renderValue, List.cons_append, readValue, skipSpace_cons (by decide)]
    rfl
  | cons v vs =>
    rw [List.forall_mem_cons] at h
    obtain ⟨c, cs, hcs, hspace, hclose, _⟩ := exists_renderValue_eq_cons style (depth + 1) v
    simp only [renderValue, List.cons_append, List.append_assoc, List.length_cons,
      List.length_append, List.nil_append, List.length_nil] at hfuel ⊢
    have hstep : 2 * (renderValue style (depth + 1) v).length ≤ fuel + 1 := by omega
    obtain ⟨fuel, rfl⟩ := exists_fuel hstep
    have hitems := @readItems_renderItems style (depth + 1) depth fuel rest v vs h.1 h.2
      (by omega)
    rw [hcs, List.cons_append] at hitems
    rw [readValue, skipSpace_cons (by decide)]
    simp only [skipSpace_newline, hcs, List.cons_append, skipSpace_cons hspace]
    split
    · next hcons => exact absurd (List.cons.inj hcons).1 hclose
    · rw [hitems, Option.map_some]

/-- An object is read back if its members are. -/
theorem readBack_object {members : List (Option String × Value)}
    (h : ∀ m ∈ members, ReadBack style m.2) : ReadBack style (.object members) := by
  intro depth fuel rest hrest hfuel
  obtain ⟨fuel, rfl⟩ := exists_fuel hfuel
  cases members with
  | nil =>
    rw [renderValue, List.cons_append, readValue, skipSpace_cons (by decide)]
    rfl
  | cons m ms =>
    rw [List.forall_mem_cons] at h
    simp only [renderValue, List.cons_append, List.append_assoc, List.length_cons,
      List.length_append, List.nil_append, List.length_nil] at hfuel ⊢
    have hstep : 2 * (renderValue style (depth + 1) m.2).length ≤ fuel + 1 := by omega
    obtain ⟨fuel, rfl⟩ := exists_fuel hstep
    have hmembers := @readMembers_renderMembers style (depth + 1) depth fuel rest m.1 m.2 ms h.1
      h.2 (by omega)
    obtain ⟨cs, hcs, _⟩ := readText_renderText m.1 (style.colon ++
      (renderValue style (depth + 1) m.2 ++
        (renderMembers style (depth + 1) ms ++ (style.newline depth ++ '}' :: rest))))
    rw [hcs] at hmembers
    rw [readValue, skipSpace_cons (by decide)]
    simp only [skipSpace_newline, hcs, skipSpace_cons (c := '"') (by decide)]
    split
    · next hcons => cases hcons
    · rw [hmembers, Option.map_some]

/-- A value that is written as a word. -/
theorem readBack_of_word {v : Value} {word : List Char}
    (hword : ∀ depth, renderValue style depth v = word)
    (hread : ∀ fuel rest, readValue (fuel + 1) (word ++ rest) = some (v, rest)) :
    ReadBack style v := by
  intro depth fuel rest _ hfuel
  obtain ⟨fuel, rfl⟩ := exists_fuel hfuel
  rw [hword, hread]

/-- Every value of which everything is written is read back. -/
theorem readBack_of_written {v : Value} (h : v.Written) : ReadBack style v := by
  induction h with
  | null => exact readBack_of_word (fun _ => renderValue.eq_1 _ _) fun _ _ => by rw [readValue]; rfl
  | bool b =>
    cases b with
    | true =>
      exact readBack_of_word (fun _ => by rw [renderValue]) fun _ _ => by rw [readValue]; rfl
    | false =>
      exact readBack_of_word (fun _ => by rw [renderValue]) fun _ _ => by rw [readValue]; rfl
  | number hn => exact readBack_number hn
  | text content => exact readBack_text content
  | array _ ih => exact readBack_array ih
  | object _ ih => exact readBack_object ih

/-- A value is read from the text that was written for it, in either style. -/
theorem parse_renderValue {v : Value} (h : v.Written) (style : Style) :
    parse (String.ofList (renderValue style 0 v)) = some v := by
  have hend : EndsNumber [] := by
    intro c hc
    cases hc
  have hread : readValue (2 * (renderValue style 0 v).length + 2) (renderValue style 0 v ++ []) =
      some (v, []) := readBack_of_written h hend (by omega)
  rw [List.append_nil] at hread
  rw [parse, String.toList_ofList, parseChars, hread]
  rfl

end Values

end VisualNovel.Json
