import FilterSql.Proofs.Identifiers

/-! How far the readers of identifiers go. They read the longest word and the longest path that a
text starts with, and leave the rest as it is. A dot belongs to the path only if a word follows it,
so a trailing one is left over, and a text without a word in front is refused by both. -/

namespace FilterSql.Identifier

variable {cs rest word : List Char} {segments : List (List Char)}

/-! ### Words in front of a text -/

/-- A non-empty run of the characters of words. -/
def IsRun (word : List Char) : Prop := word ≠ [] ∧ ∀ c ∈ word, c ∈ wordAlphabet

def StartsWord (cs : List Char) : Prop := ∃ c ∈ cs.head?, c ∈ wordAlphabet

/-- No run that the text starts with goes beyond this one. -/
structure IsLongestRun (word cs : List Char) : Prop where
  run : IsRun word
  front : word <+: cs
  longest : ∀ other, IsRun other → other <+: cs → other <+: word

theorem isRun_iff : IsRun word ↔ word ≠ [] ∧ ∀ c ∈ word, isWordChar c = true :=
  and_congr_right' (forall₂_congr fun _ _ => isWordChar_iff.symm)

theorem stops_iff : Stops isWordChar cs ↔ ¬ StartsWord cs := by
  simp only [Stops, StartsWord, ← isWordChar_iff, not_exists, not_and, Bool.not_eq_true]

theorem StartsWord.append (h : StartsWord cs) (rest : List Char) : StartsWord (cs ++ rest) := by
  obtain ⟨c, hc, halphabet⟩ := h
  obtain ⟨tail, rfl⟩ := List.head?_eq_some_iff.1 hc
  exact ⟨c, rfl, halphabet⟩

theorem IsRun.startsWord (h : IsRun word) : StartsWord word := by
  obtain ⟨c, word, rfl⟩ := List.exists_cons_of_ne_nil h.1
  exact ⟨c, rfl, h.2 c List.mem_cons_self⟩

/-- The longest run is the one after which no character of words follows. -/
theorem isLongestRun_iff :
    IsLongestRun word cs ∧ word ++ rest = cs ↔
      IsRun word ∧ word ++ rest = cs ∧ ¬ StartsWord rest := by
  constructor
  · rintro ⟨h, rfl⟩
    refine ⟨h.run, rfl, ?_⟩
    rintro ⟨c, hc, halphabet⟩
    obtain ⟨tail, rfl⟩ := List.head?_eq_some_iff.1 hc
    have hrun : IsRun (word ++ [c]) := by
      refine ⟨List.append_ne_nil_of_right_ne_nil _ (List.cons_ne_nil _ _), ?_⟩
      rw [List.forall_mem_append, List.forall_mem_singleton]
      exact ⟨h.run.2, halphabet⟩
    have hlength := (h.longest _ hrun ⟨tail, by simp⟩).length_le
    rw [List.length_append, List.length_singleton] at hlength
    omega
  · rintro ⟨hrun, rfl, hrest⟩
    refine ⟨⟨hrun, List.prefix_append _ _, fun other hother hfront => ?_⟩, rfl⟩
    obtain ⟨tail, htail⟩ := hfront
    have hword := takeWhile_append_of_stops (isRun_iff.1 hrun).2 (stops_iff.2 hrest)
    rw [← htail, List.takeWhile_append_of_pos (isRun_iff.1 hother).2] at hword
    exact ⟨_, hword⟩

theorem readWord?_eq_some_iff :
    readWord? cs = some (word, rest) ↔ IsLongestRun word cs ∧ word ++ rest = cs := by
  rw [isLongestRun_iff]
  constructor
  · intro h
    obtain ⟨hne, hall, hcs⟩ := readWord?_eq_some h
    exact ⟨isRun_iff.2 ⟨hne, hall⟩, hcs.symm, stops_iff.1 (stops_of_readWord? h)⟩
  · rintro ⟨hrun, rfl, hrest⟩
    obtain ⟨hne, hall⟩ := isRun_iff.1 hrun
    exact readWord?_append hne hall (stops_iff.2 hrest)

/-! ### Paths in front of a text -/

/-- The text is the segments with dots in between and then the rest, which goes on neither with the
last segment nor with one more. -/
structure SplitsPath (cs : List Char) (segments : List (List Char)) (rest : List Char) : Prop where
  nonempty : segments ≠ []
  runs : ∀ segment ∈ segments, IsRun segment
  joined : ['.'].intercalate segments ++ rest = cs
  ends : ¬ StartsWord rest
  dot : ∀ tail, rest = '.' :: tail → ¬ StartsWord tail

/-- No path that the text starts with goes beyond these segments. -/
structure IsLongestPath (segments : List (List Char)) (cs : List Char) : Prop where
  nonempty : segments ≠ []
  runs : ∀ segment ∈ segments, IsRun segment
  front : ['.'].intercalate segments <+: cs
  longest : ∀ others, (∀ other ∈ others, IsRun other) →
    ['.'].intercalate others <+: cs → ['.'].intercalate others <+: ['.'].intercalate segments

theorem forall_isRun_iff :
    (∀ segment ∈ segments, IsRun segment) ↔
      ∀ segment ∈ segments, segment ≠ [] ∧ ∀ c ∈ segment, isWordChar c = true :=
  forall₂_congr fun _ _ => isRun_iff

theorem splitsPath_iff :
    SplitsPath cs segments rest ↔
      segments ≠ [] ∧ (∀ segment ∈ segments, IsRun segment) ∧
        ['.'].intercalate segments ++ rest = cs ∧ EndsPath rest := by
  simp only [EndsPath, stops_iff]
  exact ⟨fun h => ⟨h.nonempty, h.runs, h.joined, h.ends, h.dot⟩,
    fun ⟨hne, hruns, hjoined, hends, hdot⟩ => ⟨hne, hruns, hjoined, hends, hdot⟩⟩

theorem readPath?_eq_some_iff :
    readPath? cs = some (segments, rest) ↔ SplitsPath cs segments rest := by
  rw [splitsPath_iff]
  constructor
  · intro h
    obtain ⟨hne, hall, hcs⟩ := readPath?_eq_some h
    refine ⟨hne, forall_isRun_iff.2 hall, hcs.symm, ?_⟩
    obtain ⟨⟨first, left⟩, hfirst, hpair⟩ := Option.map_eq_some_iff.1 h
    obtain ⟨-, rfl⟩ := Prod.mk.inj hpair
    exact endsPath_of_readSegments (stops_of_readWord? hfirst) rfl
  · rintro ⟨hne, hruns, rfl, hends⟩
    exact readPath?_append hne (forall_isRun_iff.1 hruns) hends

/-- Behind every dot of a path stands a word. -/
theorem startsWord_of_dot {front back : List Char} (hruns : ∀ segment ∈ segments, IsRun segment)
    (h : segments.flatMap ('.' :: ·) = front ++ '.' :: back) : StartsWord back := by
  induction segments generalizing front with
  | nil => simp at h
  | cons segment segments ih =>
      rw [List.forall_mem_cons] at hruns
      rw [List.flatMap_cons] at h
      cases front with
      | nil =>
          obtain rfl := (List.cons.inj h).2
          exact hruns.1.startsWord.append _
      | cons c front =>
          have htail : segment ++ segments.flatMap ('.' :: ·) = front ++ '.' :: back :=
            (List.cons.inj h).2
          rcases List.append_eq_append_iff.1 htail with ⟨middle, -, hback⟩ | ⟨middle, hword, hback⟩
          · exact ih hruns.2 hback
          · cases middle with
            | nil =>
                have hnext : segments.flatMap ('.' :: ·) = [] ++ '.' :: back := hback.symm
                exact ih hruns.2 hnext
            | cons d middle =>
                -- a word holds no dot
                obtain rfl := (List.cons.inj hback).1
                have hdot := hruns.1.2 '.' (by simp [hword])
                exact absurd hdot (by decide)

theorem mem_wordAlphabet_of_mem {c : Char} (hruns : ∀ segment ∈ segments, IsRun segment)
    (hc : c ∈ segments.flatMap ('.' :: ·)) (hne : c ≠ '.') : c ∈ wordAlphabet := by
  obtain ⟨segment, hsegment, hc⟩ := List.mem_flatMap.1 hc
  exact (hruns segment hsegment).2 c ((List.mem_cons.1 hc).resolve_left hne)

/-- A path that goes on beyond the segments has more of their last word or one more word. -/
theorem SplitsPath.not_longer (h : SplitsPath cs segments rest) {others : List (List Char)}
    (hothers : ∀ other ∈ others, IsRun other) {c : Char} {more : List Char}
    (hmore : ['.'].intercalate segments ++ c :: more = ['.'].intercalate others) :
    ¬ c :: more <+: rest := by
  rintro ⟨tail, rfl⟩
  have hdotted : others.flatMap ('.' :: ·) =
      ('.' :: ['.'].intercalate segments) ++ c :: more := by
    cases others with
    | nil => simp at hmore
    | cons other others => rw [List.cons_append, hmore, intercalate_dot]; rfl
  by_cases hc : c = '.'
  · rw [hc] at hdotted h
    exact h.dot _ rfl ((startsWord_of_dot hothers hdotted).append tail)
  · have hmem : c ∈ others.flatMap ('.' :: ·) := by simp [hdotted]
    exact h.ends ⟨c, rfl, mem_wordAlphabet_of_mem hothers hmem hc⟩

theorem SplitsPath.isLongestPath (h : SplitsPath cs segments rest) :
    IsLongestPath segments cs := by
  refine ⟨h.nonempty, h.runs, ⟨rest, h.joined⟩, fun others hothers hfront => ?_⟩
  rcases List.prefix_or_prefix_of_prefix hfront ⟨rest, h.joined⟩ with hshort | ⟨more, hmore⟩
  · exact hshort
  · cases more with
    | nil =>
        rw [List.append_nil] at hmore
        exact hmore ▸ List.prefix_rfl
    | cons c more =>
        rw [← hmore, ← h.joined, List.prefix_append_right_inj] at hfront
        exact absurd hfront (h.not_longer hothers hmore)

theorem startsWord_intercalate (hne : segments ≠ []) (hruns : ∀ segment ∈ segments, IsRun segment)
    (rest : List Char) : StartsWord (['.'].intercalate segments ++ rest) := by
  obtain ⟨segment, segments, rfl⟩ := List.exists_cons_of_ne_nil hne
  rw [intercalate_dot, List.append_assoc]
  exact (hruns segment List.mem_cons_self).startsWord.append _

theorem intercalate_injective {others : List (List Char)} (hne : segments ≠ [])
    (hruns : ∀ segment ∈ segments, IsRun segment) (hne' : others ≠ [])
    (hothers : ∀ other ∈ others, IsRun other)
    (h : ['.'].intercalate segments = ['.'].intercalate others) : segments = others := by
  have hread := readPath?_append hne (forall_isRun_iff.1 hruns) endsPath_nil
  rw [h, readPath?_append hne' (forall_isRun_iff.1 hothers) endsPath_nil] at hread
  exact (Prod.mk.inj (Option.some.inj hread)).1.symm

theorem readPath?_eq_none_iff : readPath? cs = none ↔ readWord? cs = none := by
  rw [readPath?, Option.map_eq_none_iff]

/-- The longest path is the one that the rest does not go on with. -/
theorem isLongestPath_iff :
    IsLongestPath segments cs ∧ ['.'].intercalate segments ++ rest = cs ↔
      SplitsPath cs segments rest := by
  constructor
  · rintro ⟨h, hjoined⟩
    cases hread : readPath? cs with
    | none =>
        rw [readPath?_eq_none_iff, readWord?_eq_none_iff, stops_iff, ← hjoined] at hread
        exact absurd (startsWord_intercalate h.nonempty h.runs rest) hread
    | some found =>
        -- the path that is read is a longest one too, and of two longest ones each starts the other
        obtain ⟨others, left⟩ := found
        have hsplit := readPath?_eq_some_iff.1 hread
        have hother := hsplit.isLongestPath
        have hfront := hother.longest segments h.runs h.front
        have hback := h.longest others hother.runs hother.front
        have htext := hfront.eq_of_length (Nat.le_antisymm hfront.length_le hback.length_le)
        obtain rfl := intercalate_injective h.nonempty h.runs hother.nonempty hother.runs htext
        obtain rfl := List.append_cancel_left (hjoined.trans hsplit.joined.symm)
        exact hsplit
  · exact fun h => ⟨h.isLongestPath, h.joined⟩

/-- The reader of words takes the longest run that the text starts with, and fails where no character
of words stands in front. The reader of paths takes segments up to where neither the last of them
goes on nor a dot with a further one follows; these are the longest path that the text starts with,
and it fails only where the reader of words does. -/
theorem readers_take_longest (cs : List Char) :
    (∀ word rest, readWord? cs = some (word, rest) ↔
      IsLongestRun word cs ∧ word ++ rest = cs) ∧
    (readWord? cs = none ↔ ¬ StartsWord cs) ∧
    (∀ segments rest, readPath? cs = some (segments, rest) ↔ SplitsPath cs segments rest) ∧
    (∀ segments rest, SplitsPath cs segments rest ↔
      IsLongestPath segments cs ∧ ['.'].intercalate segments ++ rest = cs) ∧
    (readPath? cs = none ↔ readWord? cs = none) :=
  ⟨fun _ _ => readWord?_eq_some_iff, readWord?_eq_none_iff.trans stops_iff,
    fun _ _ => readPath?_eq_some_iff, fun _ _ => isLongestPath_iff.symm, readPath?_eq_none_iff⟩

/-- A dot that no word follows is left over, also behind segments that were read. -/
example :
    readWord? "id.x".toList = some ("id".toList, ".x".toList) ∧
      readPath? "o.id. x".toList = some (["o".toList, "id".toList], ". x".toList) ∧
      readPath? "a..b".toList = some (["a".toList], "..b".toList) ∧
      readPath? ".a".toList = none :=
  ⟨by cbv, by cbv, by cbv, by cbv⟩

end FilterSql.Identifier
