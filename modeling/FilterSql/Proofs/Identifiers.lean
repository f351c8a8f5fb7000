import FilterSql.Proofs.Word

/-! What the readers of identifiers accept. A path is a text over the alphabet that falls into
non-empty pieces at its dots, and a word is a path of one piece. Every other text is refused: for a
character outside the alphabet if it has one, otherwise for its form. -/

namespace FilterSql

/-! ### The alphabet -/

/-- The characters of words, one by one. -/
def wordAlphabet : List Char :=
  "ABCDEFGHIJKLMNOPQRSTUVWXYZabcdefghijklmnopqrstuvwxyz0123456789_".toList

def pathAlphabet : List Char := '.' :: wordAlphabet

theorem toNat_lt_of_isWordChar {c : Char} (h : isWordChar c = true) : c.toNat < 128 := by
  have hupper : c.isUpper = true → c.toNat ≤ 'Z'.toNat := fun h => (of_decide_eq_true h).2
  have hlower : c.isLower = true → c.toNat ≤ 'z'.toNat := fun h =>
    of_decide_eq_true (Bool.and_eq_true_iff.1 h).2
  have hdigit : c.isDigit = true → c.toNat ≤ '9'.toNat := fun h => (Char.isDigit_iff_toNat.1 h).2
  rw [isWordChar, Char.isAlphanum, Bool.or_eq_true, Bool.or_eq_true, decide_eq_true_eq] at h
  rcases h with (halpha | hc) | rfl
  · rcases Bool.or_eq_true_iff.1 halpha with hc | hc
    · exact Nat.lt_of_le_of_lt (hupper hc) (by decide)
    · exact Nat.lt_of_le_of_lt (hlower hc) (by decide)
  · exact Nat.lt_of_le_of_lt (hdigit hc) (by decide)
  · decide

/-- The class of word characters is the alphabet: no letter or digit beyond ASCII is in it. -/
theorem isWordChar_iff {c : Char} : isWordChar c = true ↔ c ∈ wordAlphabet := by
  constructor
  · intro h
    have hascii : ∀ n < 128, isWordChar (Char.ofNat n) = true →
        Char.ofNat n ∈ wordAlphabet := by
      decide +kernel
    have hc := hascii c.toNat (toNat_lt_of_isWordChar h)
    rw [Char.ofNat_toNat] at hc
    exact hc h
  · have halphabet : wordAlphabet.all isWordChar = true := by decide +kernel
    exact List.all_eq_true.1 halphabet c

theorem isPathChar_iff {c : Char} : isPathChar c = true ↔ c ∈ pathAlphabet := by
  rw [isPathChar, Bool.or_eq_true, isWordChar_iff, decide_eq_true_eq, pathAlphabet, List.mem_cons,
    or_comm]

/-! ### Pieces between separators -/

theorem mem_and_ne_of_mem_splitOn {α : Type} [DecidableEq α] {separator c : α}
    {text piece : List α} (hpiece : piece ∈ text.splitOn separator) (hc : c ∈ piece) :
    c ∈ text ∧ c ≠ separator := by
  induction text generalizing piece with
  | nil => simp_all
  | cons first text ih =>
      rw [List.splitOn_eq_splitOnP, List.splitOnP_cons_eq_if_modifyHead,
        ← List.splitOn_eq_splitOnP] at hpiece
      obtain ⟨head, others, hsplit⟩ := List.exists_cons_of_ne_nil (text.splitOn_ne_nil separator)
      rw [hsplit] at hpiece ih
      split at hpiece
      · rcases List.mem_cons.1 hpiece with rfl | hpiece
        · simp at hc
        · exact (ih hpiece hc).imp_left (List.mem_cons_of_mem _)
      · next hfirst =>
          rcases List.mem_cons.1 hpiece with rfl | hpiece
          · rcases List.mem_cons.1 hc with rfl | hc
            · exact ⟨List.mem_cons_self, by simpa using hfirst⟩
            · exact (ih List.mem_cons_self hc).imp_left (List.mem_cons_of_mem _)
          · exact (ih (List.mem_cons_of_mem _ hpiece) hc).imp_left (List.mem_cons_of_mem _)

namespace Identifier

variable {text : String}

/-- What stands between the dots of a text. -/
def pieces (text : String) : List String := (text.toList.splitOn '.').map String.ofList

/-- A text over the alphabet with something in front of, between and behind its dots. -/
structure IsDotted (text : String) : Prop where
  nonempty : text ≠ ""
  characters : ∀ c ∈ text.toList, c ∈ pathAlphabet
  pieces : "" ∉ pieces text

def HasForeign (text : String) : Prop := ∃ c ∈ text.toList, c ∉ pathAlphabet

theorem not_hasForeign_iff : ¬ HasForeign text ↔ ∀ c ∈ text.toList, c ∈ pathAlphabet := by
  simp [HasForeign]

theorem all_isPathChar_iff : text.toList.all isPathChar = true ↔ ¬ HasForeign text := by
  rw [not_hasForeign_iff, List.all_eq_true]
  exact forall₂_congr fun _ _ => isPathChar_iff

theorem intercalate_pieces (text : String) : ".".intercalate (pieces text) = text := by
  rw [← String.toList_inj, String.toList_intercalate, pieces, List.map_map]
  have hid : String.toList ∘ String.ofList = id := funext fun cs => String.toList_ofList
  rw [hid, List.map_id]
  exact List.intercalate_splitOn '.'

theorem pieces_intercalate {segments : List String} (hne : segments ≠ [])
    (hwords : ∀ segment ∈ segments, IsWord segment) :
    pieces (".".intercalate segments) = segments := by
  have hdots : ∀ cs ∈ segments.map String.toList, '.' ∉ cs := by
    intro cs hcs
    obtain ⟨segment, hsegment, rfl⟩ := List.mem_map.1 hcs
    exact (hwords segment hsegment).dot_not_mem
  have hsplit := List.splitOn_intercalate '.' hdots (by simpa using hne)
  have hid : String.ofList ∘ String.toList = id := funext fun text => String.ofList_toList
  rw [pieces, String.toList_intercalate]
  change ((['.'].intercalate (segments.map String.toList)).splitOn '.').map String.ofList = segments
  rw [hsplit, List.map_map, hid, List.map_id]

theorem IsDotted.isWord (h : IsDotted text) : ∀ piece ∈ Identifier.pieces text, IsWord piece := by
  intro piece hpiece
  refine ⟨fun hempty => h.pieces (hempty ▸ hpiece), ?_⟩
  obtain ⟨cs, hcs, rfl⟩ := List.mem_map.1 hpiece
  intro c hc
  rw [String.toList_ofList] at hc
  obtain ⟨hmem, hne⟩ := mem_and_ne_of_mem_splitOn hcs hc
  have halphabet : c = '.' ∨ c ∈ wordAlphabet := List.mem_cons.1 (h.characters c hmem)
  exact isWordChar_iff.2 (halphabet.resolve_left hne)

/-! ### Accepted texts -/

theorem path_eq_ok_iff {segments : List String} :
    path text = .ok segments ↔ IsDotted text ∧ segments = pieces text := by
  constructor
  · intro h
    obtain ⟨hne, hwords, rfl⟩ := path_eq_ok h
    have hpieces := pieces_intercalate hne hwords
    refine ⟨⟨?_, ?_, ?_⟩, hpieces.symm⟩
    · intro hempty
      have hmalformed : path "" = .error (.malformed "") := by decide
      rw [hempty, hmalformed] at h
      contradiction
    · rw [← not_hasForeign_iff, ← all_isPathChar_iff, List.all_eq_true]
      exact MadeOf.intercalate (by decide) fun segment hsegment => (hwords segment hsegment).isPath
    · rw [hpieces]
      exact fun hempty => (hwords "" hempty).1 rfl
  · rintro ⟨h, rfl⟩
    have hne : pieces text ≠ [] := by simp [pieces]
    have hread := path_intercalate hne h.isWord
    rwa [intercalate_pieces] at hread

theorem word_eq_ok_iff {name : String} : word text = .ok name ↔ path text = .ok [name] := by
  constructor
  · intro h
    obtain ⟨rfl, hword⟩ := word_eq_ok h
    exact path_of_isWord hword
  · intro h
    obtain ⟨-, hwords, rfl⟩ := path_eq_ok h
    rw [String.intercalate_singleton]
    exact word_of_isWord (hwords name List.mem_cons_self)

/-! ### Refused texts -/

theorem path_of_hasForeign (h : HasForeign text) : path text = .error (.foreignCharacter text) :=
  if_neg fun hall => all_isPathChar_iff.1 hall h

theorem word_of_hasForeign (h : HasForeign text) : word text = .error (.foreignCharacter text) :=
  if_neg fun hall => all_isPathChar_iff.1 hall h

theorem path_of_malformed (hforeign : ¬ HasForeign text)
    (h : ∀ segments, path text ≠ .ok segments) : path text = .error (.malformed text) := by
  have hpath := h
  unfold path at hpath ⊢
  rw [if_pos (all_isPathChar_iff.2 hforeign)] at hpath ⊢
  split at hpath
  · exact absurd rfl (hpath _)
  · rfl

theorem word_of_malformed (hforeign : ¬ HasForeign text) (h : ∀ name, word text ≠ .ok name) :
    word text = .error (.malformed text) := by
  have hword := h
  unfold word at hword ⊢
  rw [if_pos (all_isPathChar_iff.2 hforeign)] at hword ⊢
  split at hword
  · exact absurd rfl (hword _)
  · rfl

theorem path_eq_error_iff {fault : IdentifierFault} :
    path text = .error fault ↔
      HasForeign text ∧ fault = .foreignCharacter text ∨
        ¬ HasForeign text ∧ ¬ IsDotted text ∧ fault = .malformed text := by
  by_cases hforeign : HasForeign text
  · simp [path_of_hasForeign hforeign, hforeign, eq_comm]
  · by_cases hdotted : IsDotted text
    · simp [path_eq_ok_iff.2 ⟨hdotted, rfl⟩, hforeign, hdotted]
    · have hnone : ∀ segments, path text ≠ .ok segments := fun segments h =>
        hdotted (path_eq_ok_iff.1 h).1
      simp [path_of_malformed hforeign hnone, hforeign, hdotted, eq_comm]

/-- A dotted path is no word, though its characters are right. -/
theorem word_eq_error_iff {fault : IdentifierFault} :
    word text = .error fault ↔
      path text = .error fault ∨
        fault = .malformed text ∧
          ∃ first second others, path text = .ok (first :: second :: others) := by
  by_cases hforeign : HasForeign text
  · simp [word_of_hasForeign hforeign, path_of_hasForeign hforeign]
  · cases hpath : path text with
    | error found =>
        have hnone : ∀ name, word text ≠ .ok name := by
          intro name h
          rw [word_eq_ok_iff, hpath] at h
          contradiction
        obtain ⟨h, -⟩ | ⟨-, -, rfl⟩ := path_eq_error_iff.1 hpath
        · exact absurd h hforeign
        · simp [word_of_malformed hforeign hnone]
    | ok segments =>
        match segments with
        | [] => exact absurd rfl (path_eq_ok hpath).1
        | [name] => simp [word_eq_ok_iff.2 hpath]
        | first :: second :: others =>
            have hnone : ∀ name, word text ≠ .ok name := by
              intro name h
              rw [word_eq_ok_iff, hpath] at h
              simp at h
            simp [word_of_malformed hforeign hnone, eq_comm]

/-- A path is a text over the alphabet with no empty piece between its dots, and its segments are
these pieces. A text with a character outside the alphabet is refused for that, whatever else is
wrong with it, and every other text for its form. A word is a path of one segment; a longer path is
no word because of its form. -/
theorem path_and_word_accept (text : String) :
    (∀ segments, path text = .ok segments ↔ IsDotted text ∧ segments = pieces text) ∧
    ".".intercalate (pieces text) = text ∧
    (∀ fault, path text = .error fault ↔
      HasForeign text ∧ fault = .foreignCharacter text ∨
        ¬ HasForeign text ∧ ¬ IsDotted text ∧ fault = .malformed text) ∧
    (∀ name, word text = .ok name ↔ path text = .ok [name]) ∧
    ∀ fault, word text = .error fault ↔
      path text = .error fault ∨
        fault = .malformed text ∧
          ∃ first second others, path text = .ok (first :: second :: others) :=
  ⟨fun _ => path_eq_ok_iff, intercalate_pieces text, fun _ => path_eq_error_iff,
    fun _ => word_eq_ok_iff, fun _ => word_eq_error_iff⟩

/-- A character outside the alphabet counts before an empty piece. -/
example :
    path ".id-" = .error (.foreignCharacter ".id-") ∧ path ".id" = .error (.malformed ".id") ∧
      path "o.id" = .ok ["o", "id"] ∧ word "o.id" = .error (.malformed "o.id") :=
  ⟨by cbv, by cbv, by cbv, by cbv⟩

end Identifier

end FilterSql
