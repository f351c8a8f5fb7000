import FilterSql.Proofs.Plain

/-! Reading generated SQL back. Splitting a text at its slots loses nothing, and in generated text
it finds one slot for each argument, in the order of the arguments. A name ends where it was meant
to because whatever follows it in the text cannot be part of a word. -/

namespace FilterSql

namespace Segment

/-- The characters that a segment is read from. -/
def spelling : Segment → List Char
  | .char c => [c]
  | .slot name false => ':' :: name.toList
  | .slot name true => ':' :: '.' :: '.' :: '.' :: name.toList

/-- The name of a slot, and whether it takes a list. -/
def slot? : Segment → Option (String × Bool)
  | .char _ => none
  | .slot name spread => some (name, spread)

theorem readSlot?_eq_some {cs rest : List Char} {segment : Segment}
    (h : readSlot? cs = some (segment, rest)) :
    segment ≠ .char ':' ∧ ':' :: cs = segment.spelling ++ rest := by
  unfold readSlot? at h
  split at h
  · obtain ⟨⟨word, left⟩, hword, hpair⟩ := Option.map_eq_some_iff.1 h
    obtain ⟨rfl, rfl⟩ := Prod.mk.inj hpair
    obtain ⟨-, -, rfl⟩ := Identifier.readWord?_eq_some hword
    exact ⟨by simp, by simp [spelling]⟩
  · obtain ⟨⟨word, left⟩, hword, hpair⟩ := Option.map_eq_some_iff.1 h
    obtain ⟨rfl, rfl⟩ := Prod.mk.inj hpair
    obtain ⟨-, -, rfl⟩ := Identifier.readWord?_eq_some hword
    exact ⟨by simp, by simp [spelling]⟩

/-- The segments of a text spell it out, and every colon in it starts one of them. -/
theorem spelling_of_ofChars {cs : List Char} {segments : List Segment}
    (h : ofChars cs = .ok segments) :
    segments.flatMap spelling = cs ∧ Segment.char ':' ∉ segments := by
  fun_induction ofChars cs generalizing segments with
  | case1 =>
      obtain rfl := Except.ok.inj h
      simp
  | case2 => simp at h
  | case3 tail segment rest hslot _ ih =>
      obtain ⟨segments, hsegments, rfl⟩ := map_eq_ok.1 h
      obtain ⟨hspelling, hcolon⟩ := ih hsegments
      obtain ⟨hne, htail⟩ := readSlot?_eq_some hslot
      exact ⟨by simp [hspelling, htail], by simp [hne.symm, hcolon]⟩
  | case4 c tail hc ih =>
      obtain ⟨segments, hsegments, rfl⟩ := map_eq_ok.1 h
      obtain ⟨hspelling, hcolon⟩ := ih hsegments
      refine ⟨by simp [spelling, hspelling], ?_⟩
      simp only [List.mem_cons, Segment.char.injEq, not_or]
      exact ⟨fun heq => hc heq.symm, hcolon⟩

theorem ofChars_append_of_notMem {text rest : List Char} (htext : ':' ∉ text)
    {segments : List Segment} (hrest : ofChars rest = .ok segments) :
    ofChars (text ++ rest) = .ok (text.map .char ++ segments) := by
  induction text with
  | nil => exact hrest
  | cons c text ih =>
      rw [List.mem_cons, not_or] at htext
      rw [List.cons_append, ofChars, ih htext.2]
      · rfl
      · exact fun heq => htext.1 heq.symm

theorem ofChars_of_readSlot? {cs rest : List Char} {segment : Segment} {segments : List Segment}
    (hslot : readSlot? cs = some (segment, rest)) (hrest : ofChars rest = .ok segments) :
    ofChars (':' :: cs) = .ok (segment :: segments) := by
  rw [ofChars]
  split
  · simp_all
  · simp_all [Except.map]

theorem readSlot?_word {name : String} (hname : IsWord name) {rest : List Char}
    (hrest : Stops isWordChar rest) :
    readSlot? (name.toList ++ rest) = some (.slot name false, rest) := by
  unfold readSlot?
  split
  · next heq =>
      obtain ⟨c, cs, hcs⟩ := List.exists_cons_of_ne_nil hname.toList_ne_nil
      have hdot := hname.2 c (by simp [hcs])
      rw [hcs, List.cons_append] at heq
      rw [(List.cons.inj heq).1, isWordChar_dot] at hdot
      contradiction
  · rw [Identifier.readWord?_append hname.toList_ne_nil hname.2 hrest]
    simp

theorem readSlot?_spread {name : String} (hname : IsWord name) {rest : List Char}
    (hrest : Stops isWordChar rest) :
    readSlot? ('.' :: '.' :: '.' :: (name.toList ++ rest)) = some (.slot name true, rest) := by
  change (Identifier.readWord? (name.toList ++ rest)).map _ = _
  rw [Identifier.readWord?_append hname.toList_ne_nil hname.2 hrest]
  simp

end Segment

/-! ### Segments of a text -/

/-- Reading the text in front of anything that is no part of a word gives the segments. -/
def SplitsAs (text : String) (segments : List Segment) : Prop :=
  ∀ rest more, Stops isWordChar rest → Segment.ofChars rest = .ok more →
    Segment.ofChars (text.toList ++ rest) = .ok (segments ++ more)

theorem splitsAs_empty : SplitsAs "" [] := fun _ _ _ hrest => hrest

theorem splitsAs_parameter {name : String} (hname : IsWord name) :
    SplitsAs (":" ++ name) [.slot name false] := by
  intro rest more hstops hrest
  rw [String.toList_append, List.append_assoc]
  exact Segment.ofChars_of_readSlot? (Segment.readSlot?_word hname hstops) hrest

theorem splitsAs_spread {name : String} (hname : IsWord name) :
    SplitsAs (":..." ++ name) [.slot name true] := by
  intro rest more hstops hrest
  rw [String.toList_append, List.append_assoc]
  exact Segment.ofChars_of_readSlot? (Segment.readSlot?_spread hname hstops) hrest

namespace SplitsAs

variable {text text' plain : String} {segments segments' : List Segment}

theorem plain_append (hplain : MadeOf isPlainChar plain) (h : SplitsAs text segments) :
    SplitsAs (plain ++ text) (plain.toList.map .char ++ segments) := by
  intro rest more hstops hrest
  rw [String.toList_append, List.append_assoc, List.append_assoc]
  exact Segment.ofChars_append_of_notMem (colon_notMem_of_isPlain hplain) (h rest more hstops hrest)

theorem append (h : SplitsAs text segments) (h' : SplitsAs text' segments')
    (htext' : Stops isWordChar text'.toList) :
    SplitsAs (text ++ text') (segments ++ segments') := by
  intro rest more hstops hrest
  rw [String.toList_append, List.append_assoc, List.append_assoc]
  exact h _ _ (htext'.append hstops) (h' rest more hstops hrest)

theorem ofChars (h : SplitsAs text segments) : Segment.ofChars text.toList = .ok segments := by
  have hread := h [] [] (stops_nil _) (by rw [Segment.ofChars])
  rwa [List.append_nil, List.append_nil] at hread

end SplitsAs

theorem splitsAs_plain {text : String} (h : MadeOf isPlainChar text) :
    SplitsAs text (text.toList.map .char) := by
  have happend := splitsAs_empty.plain_append h
  rwa [String.append_empty, List.append_nil] at happend

/-! ### Slots of a text -/

/-- Reading the text in front of anything that is no part of a word finds the slots. -/
def Scans (text : String) (slots : List (String × Bool)) : Prop :=
  ∀ rest segments, Stops isWordChar rest → Segment.ofChars rest = .ok segments →
    ∃ front, Segment.ofChars (text.toList ++ rest) = .ok (front ++ segments) ∧
      front.filterMap Segment.slot? = slots

theorem SplitsAs.scans {text : String} {segments : List Segment} (h : SplitsAs text segments) :
    Scans text (segments.filterMap Segment.slot?) :=
  fun rest more hstops hrest => ⟨segments, h rest more hstops hrest, rfl⟩

theorem scans_empty : Scans "" [] := splitsAs_empty.scans

theorem scans_parameter {name : String} (hname : IsWord name) :
    Scans (":" ++ name) [(name, false)] :=
  (splitsAs_parameter hname).scans

theorem scans_spread {name : String} (hname : IsWord name) :
    Scans (":..." ++ name) [(name, true)] :=
  (splitsAs_spread hname).scans

namespace Scans

variable {text text' plain : String} {slots slots' : List (String × Bool)}

theorem plain_append (hplain : MadeOf isPlainChar plain) (h : Scans text slots) :
    Scans (plain ++ text) slots := by
  intro rest segments hstops hrest
  obtain ⟨front, hfront, hslots⟩ := h rest segments hstops hrest
  refine ⟨plain.toList.map .char ++ front, ?_, ?_⟩
  · rw [String.toList_append, List.append_assoc, List.append_assoc]
    exact Segment.ofChars_append_of_notMem (colon_notMem_of_isPlain hplain) hfront
  · rw [List.filterMap_append, hslots, List.filterMap_map]
    simp [Function.comp_def, Segment.slot?]

theorem append (h : Scans text slots) (h' : Scans text' slots')
    (htext' : Stops isWordChar text'.toList) : Scans (text ++ text') (slots ++ slots') := by
  intro rest segments hstops hrest
  obtain ⟨back, hback, hslots'⟩ := h' rest segments hstops hrest
  obtain ⟨front, hfront, hslots⟩ := h _ _ (htext'.append hstops) hback
  refine ⟨front ++ back, ?_, by rw [List.filterMap_append, hslots, hslots']⟩
  rw [String.toList_append, List.append_assoc, List.append_assoc, hfront]

end Scans

theorem scans_plain {text : String} (h : MadeOf isPlainChar text) : Scans text [] := by
  have happend := scans_empty.plain_append h
  rwa [String.append_empty] at happend

theorem IsClause.scans {text : String} (h : IsClause text) {front : String}
    {slots : List (String × Bool)} (hfront : Scans front slots) : Scans (front ++ text) slots := by
  simpa using hfront.append (scans_plain h.plain) h.stops

theorem scans_parenthesized {text : String} {slots : List (String × Bool)} (h : Scans text slots) :
    Scans ("(" ++ text ++ ")") slots := by
  have hopen : MadeOf isPlainChar "(" := by decide
  have hclose : Scans ")" [] := scans_plain (by decide)
  have hscans := (h.append hclose (by decide)).plain_append hopen
  rwa [List.append_nil, ← String.append_assoc] at hscans

/-! ### Slots of conditions -/

def Argument.isMany : Argument → Bool
  | .one _ => false
  | .many _ => true

/-- The slot that an argument is bound to. -/
def Argument.slot (argument : String × Argument) : String × Bool := (argument.1, argument.2.isMany)

variable {scope : Scope} {name space : String}

theorem scans_term_spread (hname : IsWord name) : Scans (Term.spread name).sql [(name, true)] := by
  rw [Term.sql_spread]
  exact scans_parenthesized (scans_spread hname)

theorem scans_term_between {low high : String} (hlow : IsWord low) (hhigh : IsWord high) :
    Scans (Term.between low high).sql [(low, false), (high, false)] := by
  rw [Term.sql_between]
  apply (scans_parameter hlow).append ((scans_parameter hhigh).plain_append (by decide))
  exact stops_toList_append (by decide) _

theorem Predicate.Placed.scans {predicate : Predicate} (h : predicate.Placed scope name)
    (howner : MadeOf isWordChar scope.owner) (hname : IsWord name) :
    Scans predicate.sql (predicate.arguments.map Argument.slot) := by
  rw [sql_eq_term]
  apply Scans.plain_append
  · exact (((h.gives_column.isPath howner).isPlain.append (by decide)).append
      predicate.operator.isPlain_sql).append (by decide)
  · cases h with
    | compare => exact scans_parameter hname
    | member => exact scans_term_spread hname
    | range => exact scans_term_between (hname.append (by decide)) (hname.append (by decide))
    | columns hcolumn hoperator hother => exact scans_plain (hother.isPath howner).isPlain

theorem Expr.scans_intercalate (connective : Connective) {parts : List Expr}
    (hparts : ∀ part ∈ parts, Scans part.sql (part.arguments.map Argument.slot)) :
    Scans (connective.separator.intercalate (parts.map Expr.sql))
      ((parts.flatMap Expr.arguments).map Argument.slot) := by
  induction parts with
  | nil => exact scans_empty
  | cons part parts ih =>
      rw [List.forall_mem_cons] at hparts
      rw [List.flatMap_cons, List.map_append]
      cases parts with
      | nil => simpa using hparts.1
      | cons next parts =>
          rw [List.map_cons, List.map_cons, String.intercalate_cons_cons, String.append_assoc]
          exact hparts.1.append ((ih hparts.2).plain_append connective.isPlain_separator)
            (connective.stops_separator _)

theorem Expr.Placed.scans {expr : Expr} (h : expr.Placed scope name)
    (howner : MadeOf isWordChar scope.owner) (hname : IsWord name) :
    Scans expr.sql (expr.arguments.map Argument.slot) := by
  refine h.word_induction hname (fun h hname => h.scans howner hname) ?_
  intro connective parts hparts
  rw [arguments_ofParts]
  unfold Expr.ofParts
  split
  · simpa using hparts
  · rw [sql, partsSql_eq_map]
    exact scans_parenthesized (scans_intercalate connective hparts)

theorem Restriction.Placed.scans {restriction : Restriction} (h : restriction.Placed scope space)
    (howner : MadeOf isWordChar scope.owner) (hspace : MadeOf isWordChar space) :
    Scans restriction.sql (restriction.arguments.map Argument.slot) := by
  rw [sql, Expr.partsSql_eq_map]
  apply Expr.scans_intercalate
  intro part hpart
  obtain ⟨name, hname, hplaced⟩ := h.exists_word hspace hpart
  exact hplaced.scans howner hname

end FilterSql
