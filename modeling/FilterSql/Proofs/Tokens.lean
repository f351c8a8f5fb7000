import FilterSql.Proofs.Word

/-! The tokens of SQL text: its words, with every parenthesis and every comma as a word of its own.
Texts that meet at a blank or at such a mark have the tokens of the one before those of the other.
-/

namespace FilterSql

def isSeparator (c : Char) : Bool := c ∈ [' ', '(', ')', ',']

/-- A blank ends a word, and every other separator also is one. -/
def apart (c : Char) : List Char :=
  if c = ' ' then [' '] else if isSeparator c then [' ', c, ' '] else [c]

/-- The words between the blanks. -/
def blankWords (cs : List Char) : List (List Char) := (cs.splitOn ' ').filter fun word => word ≠ []

def tokens (text : String) : List String :=
  (blankWords (text.toList.flatMap apart)).map String.ofList

theorem blankWords_append (front back : List Char) :
    blankWords (front ++ ' ' :: back) = blankWords front ++ blankWords back := by
  simp only [blankWords, List.splitOn_append_cons_self, List.filter_append]

theorem blankWords_cons (back : List Char) : blankWords (' ' :: back) = blankWords back :=
  blankWords_append [] back

theorem exists_apart {c : Char} (h : isSeparator c = true) :
    (∃ rest, apart c = ' ' :: rest) ∧ ∃ front, apart c = front ++ [' '] := by
  unfold apart
  by_cases hblank : c = ' '
  · rw [if_pos hblank]
    exact ⟨⟨[], rfl⟩, [], rfl⟩
  · rw [if_neg hblank, if_pos h]
    exact ⟨⟨[c, ' '], rfl⟩, [' ', c], rfl⟩

/-- The text is empty or starts with a separator. -/
def Opens (text : String) : Prop := Stops (fun c => !isSeparator c) text.toList

instance (text : String) : Decidable (Opens text) :=
  inferInstanceAs (Decidable (Stops (fun c => !isSeparator c) text.toList))

theorem Opens.append {text text' : String} (h : Opens text) (h' : Opens text') :
    Opens (text ++ text') := by
  rw [Opens, String.toList_append]
  exact Stops.append h h'

theorem opens_append {text : String} (h : text.toList.head?.any isSeparator = true)
    (rest : String) : Opens (text ++ rest) := by
  rw [Opens, String.toList_append]
  apply stops_append
  simpa using h

/-- The text ends with a separator. -/
def Closes (text : String) : Prop := text.toList.getLast?.any isSeparator = true

instance (text : String) : Decidable (Closes text) :=
  inferInstanceAs (Decidable (text.toList.getLast?.any isSeparator = true))

theorem Closes.append (text : String) {text' : String} (h : Closes text') :
    Closes (text ++ text') := by
  unfold Closes at h ⊢
  rw [String.toList_append, List.getLast?_append]
  cases hlast : text'.toList.getLast? with
  | none => simp [hlast] at h
  | some c => simpa [hlast] using h

theorem tokens_append_of_opens (text : String) {text' : String} (h : Opens text') :
    tokens (text ++ text') = tokens text ++ tokens text' := by
  unfold tokens
  rw [String.toList_append, List.flatMap_append]
  cases hlist : text'.toList with
  | nil => simp [blankWords]
  | cons c rest =>
      have hseparator : isSeparator c = true := by
        rw [Opens, hlist, stops_cons] at h
        simpa using h
      obtain ⟨⟨marks, hmarks⟩, -⟩ := exists_apart hseparator
      rw [List.flatMap_cons, hmarks, List.cons_append, blankWords_append, blankWords_cons,
        List.map_append]

theorem tokens_append_of_closes {text : String} (h : Closes text) (text' : String) :
    tokens (text ++ text') = tokens text ++ tokens text' := by
  unfold tokens
  rw [String.toList_append, List.flatMap_append]
  obtain ⟨c, hlast, hseparator⟩ := (Option.any_eq_true _ _).1 h
  obtain ⟨front, hfront⟩ := List.getLast?_eq_some_iff.1 hlast
  obtain ⟨-, marks, hmarks⟩ := exists_apart hseparator
  have htext : text.toList.flatMap apart = front.flatMap apart ++ marks ++ [' '] := by
    rw [hfront, List.flatMap_append, List.flatMap_singleton, hmarks, List.append_assoc]
  rw [htext, List.append_assoc, List.singleton_append, blankWords_append, blankWords_append,
    List.map_append]
  simp [blankWords]

/-- A word holds no separator. -/
def isInner (c : Char) : Bool := !isSeparator c

theorem tokens_of_isInner {text : String} (hne : text ≠ "") (h : MadeOf isInner text) :
    tokens text = [text] := by
  have hapart : text.toList.flatMap apart = text.toList := by
    have hmap : text.toList.flatMap apart = text.toList.flatMap fun c => [c] := by
      apply List.flatMap_congr
      intro c hc
      have hinner : isSeparator c = false := by simpa [isInner] using h c hc
      have hblank : c ≠ ' ' := by
        rintro rfl
        exact absurd hinner (by decide)
      rw [apart, if_neg hblank, hinner, if_neg (by decide)]
    rw [hmap, List.flatMap_singleton']
  have hblank : ' ' ∉ text.toList := fun hmem => absurd (h ' ' hmem) (by decide)
  have hcs : text.toList ≠ [] := by simpa using hne
  rw [tokens, hapart, blankWords, List.splitOn_eq_singleton hblank]
  simp [hcs]

theorem isInner_of_isPathChar {c : Char} (h : isPathChar c = true) : isInner c = true := by
  have hforeign : [' ', '(', ')', ','].all (fun mark => !isPathChar mark) = true := by decide
  rw [List.all_eq_true] at hforeign
  have hmem : c ∉ [' ', '(', ')', ','] := by
    intro hmem
    have hc := hforeign c hmem
    rw [h] at hc
    exact absurd hc (by decide)
  simp only [isInner, isSeparator, hmem, decide_false, Bool.not_false]

theorem IsWord.inner {text : String} (h : IsWord text) : MadeOf isInner text :=
  h.isPath.mono fun _ => isInner_of_isPathChar

theorem IsWord.tokens {text : String} (h : IsWord text) : tokens text = [text] :=
  tokens_of_isInner h.1 h.inner

end FilterSql
