import FilterSql.Identifier
import Mathlib.Data.List.Basic

/-! Words and dotted paths as text. A reader that meets a word takes exactly that word, provided
that what follows cannot extend it; a text that passes as a path is its segments with dots in
between. -/

namespace FilterSql

/-! ### Texts of one class -/

def MadeOf (p : Char → Bool) (text : String) : Prop := ∀ c ∈ text.toList, p c = true

instance (p : Char → Bool) (text : String) : Decidable (MadeOf p text) :=
  List.decidableBAll (fun c => p c = true) text.toList

namespace MadeOf

variable {p q : Char → Bool} {text text' : String}

theorem mono (h : MadeOf p text) (hpq : ∀ c, p c = true → q c = true) : MadeOf q text :=
  fun c hc => hpq c (h c hc)

theorem append (h : MadeOf p text) (h' : MadeOf p text') : MadeOf p (text ++ text') := by
  intro c hc
  rw [String.toList_append, List.mem_append] at hc
  exact hc.elim (h c) (h' c)

theorem intercalate {separator : String} {texts : List String} (hseparator : MadeOf p separator)
    (htexts : ∀ text ∈ texts, MadeOf p text) : MadeOf p (separator.intercalate texts) := by
  induction texts with
  | nil => simp [MadeOf]
  | cons text texts ih =>
      rw [List.forall_mem_cons] at htexts
      cases texts with
      | nil => simpa using htexts.1
      | cons next texts =>
          rw [String.intercalate_cons_cons]
          exact (htexts.1.append hseparator).append (ih htexts.2)

theorem join {texts : List String} (htexts : ∀ text ∈ texts, MadeOf p text) :
    MadeOf p (String.join texts) := by
  induction texts with
  | nil => simp [MadeOf]
  | cons text texts ih =>
      rw [List.forall_mem_cons] at htexts
      rw [String.join_cons]
      exact htexts.1.append (ih htexts.2)

end MadeOf

def IsWord (text : String) : Prop := text ≠ "" ∧ MadeOf isWordChar text

instance (text : String) : Decidable (IsWord text) :=
  inferInstanceAs (Decidable (text ≠ "" ∧ MadeOf isWordChar text))

/-- The text does not go on with a character of the class. -/
def Stops (p : Char → Bool) (rest : List Char) : Prop := ∀ c ∈ rest.head?, p c = false

@[simp] theorem stops_nil (p : Char → Bool) : Stops p [] := by simp [Stops]

@[simp] theorem stops_cons {p : Char → Bool} {c : Char} {rest : List Char} :
    Stops p (c :: rest) ↔ p c = false := by
  simp [Stops]

instance (p : Char → Bool) (rest : List Char) : Decidable (Stops p rest) :=
  match rest with
  | [] => isTrue (stops_nil p)
  | _ :: _ => decidable_of_iff _ stops_cons.symm

theorem stops_append {p : Char → Bool} {text : List Char}
    (h : text.head?.any (fun c => !p c) = true) (rest : List Char) : Stops p (text ++ rest) := by
  cases text with
  | nil => simp at h
  | cons c text => simpa using h

theorem stops_toList_append {p : Char → Bool} {text : String}
    (h : text.toList.head?.any (fun c => !p c) = true) (rest : String) :
    Stops p (text ++ rest).toList := by
  rw [String.toList_append]
  exact stops_append h _

theorem Stops.append {p : Char → Bool} {text rest : List Char} (htext : Stops p text)
    (hrest : Stops p rest) : Stops p (text ++ rest) := by
  cases text with
  | nil => exact hrest
  | cons c text => exact stops_cons.2 (stops_cons.1 htext)

theorem takeWhile_append_of_stops {p : Char → Bool} {text rest : List Char}
    (htext : ∀ c ∈ text, p c = true) (hrest : Stops p rest) :
    (text ++ rest).takeWhile p = text := by
  rw [List.takeWhile_append_of_pos htext]
  cases rest with
  | nil => simp
  | cons c rest => simp [stops_cons.1 hrest]

theorem dropWhile_append_of_stops {p : Char → Bool} {text rest : List Char}
    (htext : ∀ c ∈ text, p c = true) (hrest : Stops p rest) :
    (text ++ rest).dropWhile p = rest := by
  rw [List.dropWhile_append_of_pos htext]
  cases rest with
  | nil => rfl
  | cons c rest => simp [stops_cons.1 hrest]

theorem stops_dropWhile (p : Char → Bool) (cs : List Char) : Stops p (cs.dropWhile p) := by
  induction cs with
  | nil => exact stops_nil p
  | cons c cs ih =>
      rw [List.dropWhile_cons]
      split
      · exact ih
      · next hc => exact stops_cons.2 (by simpa using hc)

/-- A text of one class ends where the class ends. -/
theorem append_unique (p : Char → Bool) {text text' rest rest' : List Char}
    (htext : ∀ c ∈ text, p c = true) (htext' : ∀ c ∈ text', p c = true) (hrest : Stops p rest)
    (hrest' : Stops p rest') (h : text ++ rest = text' ++ rest') : text = text' ∧ rest = rest' := by
  have htake := congrArg (List.takeWhile p) h
  rw [takeWhile_append_of_stops htext hrest, takeWhile_append_of_stops htext' hrest'] at htake
  subst htake
  exact ⟨rfl, List.append_cancel_left h⟩

theorem IsWord.toList_ne_nil {text : String} (h : IsWord text) : text.toList ≠ [] := by
  simpa using h.1

theorem isWord_ofList {cs : List Char} (hne : cs ≠ []) (hall : ∀ c ∈ cs, isWordChar c = true) :
    IsWord (String.ofList cs) := by
  refine ⟨?_, by simpa [MadeOf] using hall⟩
  intro h
  apply hne
  rw [← String.toList_ofList (l := cs), h, String.toList_empty]

theorem isWordChar_of_isDigit {c : Char} (h : c.isDigit = true) : isWordChar c = true := by
  simp [isWordChar, Char.isAlphanum, h]

theorem isWordChar_dot : isWordChar '.' = false := by decide

theorem IsWord.dot_not_mem {text : String} (h : IsWord text) : '.' ∉ text.toList := by
  intro hmem
  have := h.2 _ hmem
  rw [isWordChar_dot] at this
  contradiction

theorem IsWord.isPath {text : String} (h : IsWord text) : MadeOf isPathChar text :=
  h.2.mono fun c hc => by simp [isPathChar, hc]

theorem isWord_toString (n : Nat) : IsWord (toString n) := by
  rw [Nat.toString_eq_ofList_toDigits]
  apply isWord_ofList Nat.toDigits_ne_nil
  intro c hc
  exact isWordChar_of_isDigit (Nat.isDigit_of_mem_toDigits (by decide) (by decide) hc)

theorem IsWord.append_unique {word word' : String} (hword : IsWord word) (hword' : IsWord word')
    {rest rest' : List Char} (hrest : Stops isWordChar rest) (hrest' : Stops isWordChar rest')
    (h : word.toList ++ rest = word'.toList ++ rest') : word = word' ∧ rest = rest' :=
  (FilterSql.append_unique isWordChar hword.2 hword'.2 hrest hrest' h).imp_left String.toList_inj.1

theorem Stops.isWordChar {rest : List Char} (h : Stops isPathChar rest) :
    Stops isWordChar rest := by
  intro c hc
  have hpath := h c hc
  simp only [isPathChar, Bool.or_eq_false_iff] at hpath
  exact hpath.1

theorem IsWord.append {left right : String} (hleft : IsWord left)
    (hright : MadeOf isWordChar right) : IsWord (left ++ right) :=
  ⟨fun h => hleft.1 (by simp_all), hleft.2.append hright⟩

theorem IsWord.prepend {space name : String} (hname : IsWord name)
    (hspace : MadeOf isWordChar space) : IsWord (space ++ name) :=
  ⟨fun h => hname.1 (String.append_eq_empty_iff.1 h).2, hspace.append hname.2⟩

theorem intercalate_dot (word : List Char) (words : List (List Char)) :
    ['.'].intercalate (word :: words) = word ++ words.flatMap ('.' :: ·) := by
  induction words generalizing word with
  | nil => simp
  | cons next words ih =>
      rw [List.intercalate_cons_cons, ih]
      simp

namespace Identifier

theorem readWord?_append {word rest : List Char} (hne : word ≠ [])
    (hword : ∀ c ∈ word, isWordChar c = true) (hrest : Stops isWordChar rest) :
    readWord? (word ++ rest) = some (word, rest) := by
  unfold readWord?
  rw [takeWhile_append_of_stops hword hrest, dropWhile_append_of_stops hword hrest]
  cases word with
  | nil => exact absurd rfl hne
  | cons c word => rfl

theorem readWord?_eq_some {cs word rest : List Char} (h : readWord? cs = some (word, rest)) :
    word ≠ [] ∧ (∀ c ∈ word, isWordChar c = true) ∧ cs = word ++ rest := by
  unfold readWord? at h
  split at h
  · simp at h
  · rename_i hne
    simp only [Option.some.injEq, Prod.mk.injEq] at h
    obtain ⟨rfl, rfl⟩ := h
    exact ⟨hne, List.all_eq_true.1 List.all_takeWhile, List.takeWhile_append_dropWhile.symm⟩

theorem stops_of_readWord? {cs word rest : List Char} (h : readWord? cs = some (word, rest)) :
    Stops isWordChar rest := by
  unfold readWord? at h
  split at h
  · simp at h
  · obtain ⟨-, rfl⟩ := Prod.mk.inj (Option.some.inj h)
    exact stops_dropWhile isWordChar cs

theorem readSegments_spec {cs left : List Char} {words : List (List Char)}
    (h : readSegments cs = (words, left)) :
    (∀ word ∈ words, word ≠ [] ∧ ∀ c ∈ word, isWordChar c = true) ∧
      cs = words.flatMap ('.' :: ·) ++ left := by
  fun_induction readSegments cs generalizing words left with
  | case1 tail word rest hword _ words' left' hrest ih =>
      simp only [Prod.mk.injEq] at h
      obtain ⟨rfl, rfl⟩ := h
      obtain ⟨hne, hall, htail⟩ := readWord?_eq_some hword
      obtain ⟨hwords, hsplit⟩ := ih hrest
      refine ⟨?_, ?_⟩
      · intro other hother
        rcases List.mem_cons.1 hother with rfl | hother
        · exact ⟨hne, hall⟩
        · exact hwords other hother
      · rw [htail, hsplit]
        simp
  | case2 => simp_all
  | case3 => simp_all

theorem readPath?_eq_some {cs left : List Char} {words : List (List Char)}
    (h : readPath? cs = some (words, left)) :
    words ≠ [] ∧ (∀ word ∈ words, word ≠ [] ∧ ∀ c ∈ word, isWordChar c = true) ∧
      cs = ['.'].intercalate words ++ left := by
  obtain ⟨⟨word, rest⟩, hword, hpair⟩ := Option.map_eq_some_iff.1 h
  simp only [Prod.mk.injEq] at hpair
  obtain ⟨rfl, rfl⟩ := hpair
  obtain ⟨hne, hall, hcs⟩ := readWord?_eq_some hword
  obtain ⟨hwords, hrest⟩ := readSegments_spec (Prod.eta (readSegments rest)).symm
  refine ⟨by simp, ?_, ?_⟩
  · intro other hother
    rcases List.mem_cons.1 hother with rfl | hother
    · exact ⟨hne, hall⟩
    · exact hwords other hother
  · rw [hcs, intercalate_dot, List.append_assoc, ← hrest]

/-- A text that passes as a path is its segments with dots in between. -/
theorem path_eq_ok {text : String} {segments : List String} (h : path text = .ok segments) :
    segments ≠ [] ∧ (∀ segment ∈ segments, IsWord segment) ∧ ".".intercalate segments = text := by
  unfold path at h
  split at h
  · split at h
    · rename_i words hwords
      obtain ⟨hne, hall, htext⟩ := readPath?_eq_some hwords
      obtain rfl := Except.ok.inj h
      refine ⟨by simpa using hne, ?_, ?_⟩
      · intro segment hsegment
        obtain ⟨word, hword, rfl⟩ := List.mem_map.1 hsegment
        exact isWord_ofList (hall word hword).1 (hall word hword).2
      · rw [← String.toList_inj, String.toList_intercalate, List.map_map, htext]
        simp
    · simp at h
  · simp at h

theorem stops_flatMap_dot (words : List (List Char)) :
    Stops isWordChar (words.flatMap ('.' :: ·)) := by
  cases words with
  | nil => exact stops_nil _
  | cons word words => exact stops_cons.2 (by decide)

/-- Nothing more is read from here: neither does the last word go on, nor does a dot with another word
follow. -/
def EndsPath (rest : List Char) : Prop :=
  Stops isWordChar rest ∧ ∀ tail, rest = '.' :: tail → Stops isWordChar tail

theorem endsPath_nil : EndsPath [] := by
  refine ⟨stops_nil _, fun tail htail => ?_⟩
  cases htail

theorem readWord?_eq_none_iff {cs : List Char} : readWord? cs = none ↔ Stops isWordChar cs := by
  cases cs with
  | nil => simp [readWord?]
  | cons c cs =>
      rw [stops_cons, readWord?, List.takeWhile_cons]
      cases isWordChar c <;> simp

theorem endsPath_of_readSegments {cs left : List Char} {words : List (List Char)}
    (hcs : Stops isWordChar cs) (h : readSegments cs = (words, left)) : EndsPath left := by
  fun_induction readSegments cs generalizing words left with
  | case1 tail word rest hword _ words' left' hrest ih =>
      obtain ⟨-, rfl⟩ := Prod.mk.inj h
      exact ih (stops_of_readWord? hword) hrest
  | case2 tail hnone =>
      obtain ⟨-, rfl⟩ := Prod.mk.inj h
      refine ⟨hcs, ?_⟩
      rintro _ ⟨⟩
      exact readWord?_eq_none_iff.1 hnone
  | case3 cs hdot =>
      obtain ⟨-, rfl⟩ := Prod.mk.inj h
      exact ⟨hcs, fun tail htail => absurd htail (hdot tail)⟩

theorem readSegments_append {words : List (List Char)} {left : List Char}
    (hwords : ∀ word ∈ words, word ≠ [] ∧ ∀ c ∈ word, isWordChar c = true)
    (hleft : EndsPath left) :
    readSegments (words.flatMap ('.' :: ·) ++ left) = (words, left) := by
  induction words with
  | nil =>
      rw [List.flatMap_nil, List.nil_append, readSegments.eq_def]
      split
      · next tail =>
          split
          · next hword =>
              rw [readWord?_eq_none_iff.2 (hleft.2 tail rfl)] at hword
              contradiction
          · rfl
      · rfl
  | cons word words ih =>
      rw [List.forall_mem_cons] at hwords
      have hword := readWord?_append hwords.1.1 hwords.1.2
        ((stops_flatMap_dot words).append hleft.1)
      rw [List.flatMap_cons, List.cons_append, List.cons_append, List.append_assoc, readSegments]
      split
      · next found rest hfound =>
          obtain ⟨rfl, rfl⟩ := Prod.mk.inj (Option.some.inj (hword.symm.trans hfound))
          rw [ih hwords.2]
      · next hfound => simp [hword] at hfound

/-- Words with dots in between are read whole where nothing goes on with them. -/
theorem readPath?_append {words : List (List Char)} {left : List Char} (hne : words ≠ [])
    (hwords : ∀ word ∈ words, word ≠ [] ∧ ∀ c ∈ word, isWordChar c = true)
    (hleft : EndsPath left) :
    readPath? (['.'].intercalate words ++ left) = some (words, left) := by
  obtain ⟨first, others, rfl⟩ := List.exists_cons_of_ne_nil hne
  rw [List.forall_mem_cons] at hwords
  have hfirst := readWord?_append hwords.1.1 hwords.1.2
    ((stops_flatMap_dot others).append hleft.1)
  rw [intercalate_dot, List.append_assoc, readPath?, hfirst, Option.map_some]
  simp only [readSegments_append hwords.2 hleft]

/-- Words with dots in between pass as a path. -/
theorem path_intercalate {segments : List String} (hne : segments ≠ [])
    (hwords : ∀ segment ∈ segments, IsWord segment) :
    path (".".intercalate segments) = .ok segments := by
  have hpath : MadeOf isPathChar (".".intercalate segments) :=
    .intercalate (by decide) fun segment hsegment => (hwords segment hsegment).isPath
  have hlists : ∀ word ∈ segments.map String.toList,
      word ≠ [] ∧ ∀ c ∈ word, isWordChar c = true := by
    intro word hword
    obtain ⟨segment, hsegment, rfl⟩ := List.mem_map.1 hword
    exact ⟨(hwords segment hsegment).toList_ne_nil, (hwords segment hsegment).2⟩
  have hread : readPath? (".".intercalate segments).toList =
      some (segments.map String.toList, []) := by
    rw [String.toList_intercalate, ← List.append_nil (List.intercalate _ _)]
    exact readPath?_append (by simpa using hne) hlists endsPath_nil
  rw [path, if_pos (List.all_eq_true.2 hpath), hread]
  simp

/-- A word is a path of one segment. -/
theorem path_of_isWord {text : String} (h : IsWord text) : path text = .ok [text] := by
  have hread : path (".".intercalate [text]) = .ok [text] :=
    path_intercalate (by simp) (by simpa using h)
  rwa [String.intercalate_singleton] at hread

theorem word_of_isWord {text : String} (h : IsWord text) : word text = .ok text := by
  have hread : readWord? text.toList = some (text.toList, []) := by
    have hword := readWord?_append h.toList_ne_nil h.2 (stops_nil isWordChar)
    rwa [List.append_nil] at hword
  rw [word, if_pos (List.all_eq_true.2 h.isPath), hread]
  simp

theorem word_eq_ok {text name : String} (h : word text = .ok name) : name = text ∧ IsWord text := by
  unfold word at h
  split at h
  · split at h
    · rename_i cs hcs
      obtain ⟨hne, hall, htext⟩ := readWord?_eq_some hcs
      rw [List.append_nil] at htext
      obtain rfl := Except.ok.inj h
      have hname : String.ofList cs = text := by rw [← htext, String.ofList_toList]
      exact ⟨hname, hname ▸ isWord_ofList hne hall⟩
    · simp at h
  · simp at h

end Identifier

end FilterSql
