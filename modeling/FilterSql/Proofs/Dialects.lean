import FilterSql.Proofs.Rewriting

/-! Positional forms side by side. Filling the slots gives pieces that no dialect has a part in; a
dialect only spells the placeholders among them. In one dialect a placeholder is spelled like a slot
named by its number, so that form is a query again, which is filled with the same pieces. The others
spell no colon and leave nothing to fill. -/

namespace FilterSql

/-! ### Pieces without a dialect -/

namespace Segment

/-- What the segments become when the first placeholder has number `position`. -/
def pieces (bindings : Bindings) (position : Nat) : List Segment → Except SlotFault (List Piece)
  | [] => .ok []
  | .char c :: segments =>
    (pieces bindings position segments).map (.text (String.singleton c) :: ·)
  | .slot name spread :: segments =>
    match bindings.get? name with
    | none => .error (.unknown name)
    | some argument =>
      if argument.isMany = spread then
        (pieces bindings (position + argument.values.length) segments).map
          (Piece.listing position argument.values ++ ·)
      else
        .error (.wrongShape name)

end Segment

namespace Piece

/-- The texts in a dialect, one after the other. -/
def spell (dialect : Dialect) (pieces : List Piece) : String :=
  String.join (pieces.map (sql dialect))

/-- The values that the placeholders stand for. -/
def values (pieces : List Piece) : List Scalar := (pieces.filterMap value?).map Prod.fst

@[simp] theorem spell_nil (dialect : Dialect) : spell dialect [] = "" := rfl

@[simp] theorem spell_cons (dialect : Dialect) (piece : Piece) (pieces : List Piece) :
    spell dialect (piece :: pieces) = piece.sql dialect ++ spell dialect pieces := by
  simp [spell, String.join_cons]

theorem spell_append (dialect : Dialect) (pieces pieces' : List Piece) :
    spell dialect (pieces ++ pieces') = spell dialect pieces ++ spell dialect pieces' := by
  simp [spell, String.join_append]

theorem values_append (pieces pieces' : List Piece) :
    values (pieces ++ pieces') = values pieces ++ values pieces' := by
  simp [values]

theorem values_listing (number : Nat) (scalars : List Scalar) :
    values (listing number scalars) = scalars := by
  rw [values, filterMap_value?_listing, List.zipIdx_map_fst]

end Piece

variable {dialect : Dialect} {bindings : Bindings}

namespace Segment

theorem pieces_slot {name : String} {argument : Argument} (position : Nat)
    (segments : List Segment) (h : bindings.get? name = some argument) :
    pieces bindings position (.slot name argument.isMany :: segments) =
      (pieces bindings (position + argument.values.length) segments).map
        (Piece.listing position argument.values ++ ·) := by
  simp only [pieces, h, if_true]

theorem pieces_slot_of_not_binds {name : String} {spread : Bool} (position : Nat)
    (segments : List Segment) (h : ¬ bindings.Binds name spread) :
    pieces bindings position (.slot name spread :: segments) =
      .error (bindings.slotFault name) := by
  cases hget : bindings.get? name with
  | none => simp [pieces, Bindings.slotFault, Bindings.contains, hget]
  | some argument =>
      have hshape : argument.isMany ≠ spread := fun heq => h ⟨argument, hget, heq⟩
      simp [pieces, Bindings.slotFault, Bindings.contains, hget, hshape]

/-- A slot that is filled becomes a listing of what is bound to its name. -/
theorem pieces_slot_eq_ok {position : Nat} {name : String} {spread : Bool}
    {segments : List Segment} {filled : List Piece}
    (h : pieces bindings position (.slot name spread :: segments) = .ok filled) :
    ∃ (argument : Argument) (rest : List Piece),
      pieces bindings (position + argument.values.length) segments = .ok rest ∧
        filled = Piece.listing position argument.values ++ rest := by
  by_cases hbinds : bindings.Binds name spread
  · obtain ⟨argument, hget, rfl⟩ := hbinds
    rw [pieces_slot position segments hget] at h
    obtain ⟨rest, hrest, hfilled⟩ := map_eq_ok.1 h
    exact ⟨argument, rest, hrest, hfilled.symm⟩
  · rw [pieces_slot_of_not_binds position segments hbinds] at h
    simp at h

theorem fill_eq_map_pieces (dialect : Dialect) (bindings : Bindings) (position : Nat)
    (segments : List Segment) :
    fill dialect bindings position segments =
      (pieces bindings position segments).map fun pieces =>
        ((Piece.spell dialect pieces).toList, Piece.values pieces) := by
  induction segments generalizing position with
  | nil => rfl
  | cons segment segments ih =>
      cases segment with
      | char c =>
          rw [fill, ih, pieces]
          cases pieces bindings position segments with
          | error fault => rfl
          | ok pieces => simp [Except.map]; rfl
      | slot name spread =>
          by_cases hbinds : bindings.Binds name spread
          · obtain ⟨argument, hget, rfl⟩ := hbinds
            rw [fill_slot position segments hget, pieces_slot position segments hget, ih, map_map,
              map_map]
            congr 1
            funext rest
            simp only [Function.comp_apply, Piece.spell_append, Piece.values_append,
              Piece.values_listing, String.toList_append]
            rfl
          · rw [fill_slot_of_not_binds position segments hbinds,
              pieces_slot_of_not_binds position segments hbinds]
            rfl

/-- The placeholders among the pieces are numbered through. -/
theorem filterMap_value?_of_pieces {position : Nat} {segments : List Segment}
    {filled : List Piece} (h : pieces bindings position segments = .ok filled) :
    filled.filterMap Piece.value? = (Piece.values filled).zipIdx position := by
  induction segments generalizing position filled with
  | nil =>
      obtain rfl := Except.ok.inj h
      rfl
  | cons segment segments ih =>
      cases segment with
      | char c =>
          obtain ⟨rest, hrest, rfl⟩ := map_eq_ok.1 h
          have hnumbers := ih hrest
          exact hnumbers
      | slot name spread =>
          obtain ⟨argument, rest, hrest, rfl⟩ := pieces_slot_eq_ok h
          rw [List.filterMap_append, Piece.values_append, Piece.values_listing,
            Piece.filterMap_value?_listing, List.zipIdx_append, ih hrest]

end Segment

/-- The pieces of a query in every positional form. -/
def Query.pieces (query : Query) : Except SlotFault (List Piece) :=
  Segment.ofChars query.sql.toList >>= Segment.pieces query.bindings 1

theorem Query.positional_eq_map_pieces (query : Query) (dialect : Dialect) :
    query.positional dialect =
      query.pieces.map fun pieces => ⟨Piece.spell dialect pieces, Piece.values pieces⟩ := by
  unfold Query.positional Query.pieces
  cases Segment.ofChars query.sql.toList with
  | error fault => rfl
  | ok segments =>
      simp only [bind, Except.bind, Segment.fill_eq_map_pieces]
      cases Segment.pieces query.bindings 1 segments with
      | error fault => rfl
      | ok pieces => simp [Except.map, pure, Except.pure]

/-! ### Reading a form again -/

namespace Piece

/-- What a piece is read as where placeholders are spelled like slots. -/
def segments : Piece → List Segment
  | .text written => written.toList.map .char
  | .placeholder number _ => [.slot (toString number) false]

theorem splitsAs_listing (number : Nat) (scalars : List Scalar) :
    SplitsAs (spell .oracle (listing number scalars))
      ((listing number scalars).flatMap segments) := by
  have hplaceholder : ∀ number : Nat,
      SplitsAs (Dialect.placeholder .oracle number) [.slot (toString number) false] := fun number =>
    splitsAs_parameter (isWord_toString number)
  induction scalars generalizing number with
  | nil => exact splitsAs_empty
  | cons scalar scalars ih =>
      cases scalars with
      | nil => simpa [listing, segments] using hplaceholder number
      | cons next scalars =>
          rw [listing_cons_cons, spell_cons, spell_cons]
          exact (hplaceholder number).append ((ih (number + 1)).plain_append (by decide))
            (stops_toList_append (by decide) _)

theorem stops_listing (number : Nat) (scalars : List Scalar) :
    Stops isWordChar (spell .oracle (listing number scalars)).toList := by
  have hplaceholder : ∀ (number : Nat) (rest : String),
      Stops isWordChar (Dialect.placeholder .oracle number ++ rest).toList := by
    intro number rest
    rw [Dialect.placeholder, String.append_assoc]
    exact stops_toList_append (by decide) _
  cases scalars with
  | nil => exact stops_nil _
  | cons scalar scalars =>
      cases scalars with
      | nil => simpa [listing] using hplaceholder number ""
      | cons next scalars =>
          rw [listing_cons_cons, spell_cons]
          exact hplaceholder number _

end Piece

namespace Segment

/-- Where placeholders are spelled like slots, the pieces are read as what they are. A placeholder
ends with its number: what followed the slot in its place is no part of a word, also when the list
of the slot is empty. -/
theorem splits_of_pieces {position : Nat} {cs : List Char} {segments : List Segment}
    {filled : List Piece} (hsplits : Splits cs segments)
    (h : pieces bindings position segments = .ok filled) :
    Splits (Piece.spell .oracle filled).toList (filled.flatMap Piece.segments) ∧
      (Stops isWordChar cs → Stops isWordChar (Piece.spell .oracle filled).toList) := by
  induction hsplits generalizing position filled with
  | nil =>
      obtain rfl := Except.ok.inj h
      exact ⟨.nil, id⟩
  | @char c rest segments hc hrest ih =>
      obtain ⟨filled, hfilled, rfl⟩ := map_eq_ok.1 h
      obtain ⟨hsplits, -⟩ := ih hfilled
      rw [Piece.spell_cons, Piece.sql_text, String.toList_append, List.flatMap_cons, Piece.segments]
      simp only [String.toList_singleton, List.map_cons, List.map_nil, List.singleton_append]
      exact ⟨.char hc hsplits, fun hstops => stops_cons.2 (stops_cons.1 hstops)⟩
  | @slot name spread rest segments hname hstops hrest ih =>
      obtain ⟨argument, filled, hfilled, rfl⟩ := pieces_slot_eq_ok h
      obtain ⟨hsplits, hafter⟩ := ih hfilled
      have hread := Piece.splitsAs_listing position argument.values _ _ (hafter hstops)
        (ofChars_eq_ok.2 hsplits)
      have hlisting := Piece.stops_listing position argument.values
      rw [Piece.spell_append, String.toList_append, List.flatMap_append]
      exact ⟨ofChars_eq_ok.1 hread, fun _ => hlisting.append (hafter hstops)⟩

theorem fill_chars_append (dialect : Dialect) (bindings : Bindings) (position : Nat)
    (cs : List Char) (segments : List Segment) :
    fill dialect bindings position (cs.map .char ++ segments) =
      (fill dialect bindings position segments).map fun filled => (cs ++ filled.1, filled.2) := by
  induction cs with
  | nil =>
      rw [List.map_nil, List.nil_append]
      cases fill dialect bindings position segments <;> rfl
  | cons c cs ih =>
      rw [List.map_cons, List.cons_append, fill, ih]
      cases fill dialect bindings position segments <;> rfl

/-- Pieces that are numbered through are filled again with the same values, once these are bound
under their numbers. -/
theorem fill_segments (dialect : Dialect) {position : Nat} {filled : List Piece}
    {scalars : List Scalar} (hnumbers : filled.filterMap Piece.value? = scalars.zipIdx position)
    (hbound : ∀ scalar ∈ scalars.zipIdx position,
      bindings.get? (toString scalar.2) = some (.one scalar.1)) :
    fill dialect bindings position (filled.flatMap Piece.segments) =
      .ok ((Piece.spell dialect filled).toList, scalars) := by
  induction filled generalizing position scalars with
  | nil =>
      obtain rfl : scalars = [] := by simpa using hnumbers.symm
      rfl
  | cons piece filled ih =>
      cases piece with
      | text written =>
          rw [List.flatMap_cons, Piece.segments, fill_chars_append, ih hnumbers hbound]
          simp [Except.map]
      | placeholder number value =>
          cases scalars with
          | nil => simp [Piece.value?] at hnumbers
          | cons scalar scalars =>
              rw [List.zipIdx_cons] at hnumbers hbound
              obtain ⟨hhead, htail⟩ := List.cons.inj hnumbers
              obtain ⟨rfl, rfl⟩ := Prod.mk.inj hhead
              rw [List.forall_mem_cons] at hbound
              rw [List.flatMap_cons, Piece.segments, List.singleton_append]
              simp only [fill, hbound.1, ih htail hbound.2]
              simp [bind, Except.bind, pure, Except.pure]

end Segment

/-! ### Values under their numbers -/

/-- The values as arguments of parameters that are named by the numbers of the placeholders. -/
def Bindings.numbered (values : List Scalar) : Bindings :=
  .ofList ((values.zipIdx 1).map fun value => (toString value.2, .one value.1))

theorem Bindings.get?_numbered {values : List Scalar} {value : Scalar × Nat}
    (h : value ∈ values.zipIdx 1) :
    (numbered values).get? (toString value.2) = some (.one value.1) := by
  have hnodup : (((values.zipIdx 1).map fun value =>
      (toString value.2, Argument.one value.1)).map Prod.fst).Nodup := by
    have hnumbers : ((values.zipIdx 1).map Prod.snd).Nodup := by
      rw [List.zipIdx_map_snd]
      exact List.nodup_range'
    rw [List.map_map]
    have hinjective : Function.Injective (toString : Nat → String) := fun _ _ => Nat.repr_injective
    have hnames := hnumbers.map hinjective
    rwa [List.map_map] at hnames
  have hentries := Bindings.entries_ofList hnodup
  apply Bindings.get?_eq_some_of_mem
  · rw [Bindings.names, numbered, hentries]
    exact hnodup
  · rw [numbered, hentries]
    exact List.mem_map.2 ⟨value, h, rfl⟩

/-- The query whose text is the positional one and whose parameters are the values, named by their
numbers. -/
def PositionalQuery.numbered (positional : PositionalQuery) (tables : List String) : Query :=
  ⟨positional.sql, .numbered positional.values, tables⟩

namespace Query

variable {query : Query} {filled : List Piece}

theorem exists_segments_of_pieces (h : query.pieces = .ok filled) :
    ∃ segments, Segment.Splits query.sql.toList segments ∧
      Segment.pieces query.bindings 1 segments = .ok filled := by
  obtain ⟨segments, hsegments, hpieces⟩ := bind_eq_ok.1 h
  exact ⟨segments, Segment.ofChars_eq_ok.1 hsegments, hpieces⟩

/-- The form whose placeholders are spelled like slots is filled again with the same pieces. -/
theorem positional_numbered (h : query.pieces = .ok filled) (tables : List String)
    (dialect : Dialect) :
    (PositionalQuery.numbered ⟨Piece.spell .oracle filled, Piece.values filled⟩ tables).positional
      dialect = .ok ⟨Piece.spell dialect filled, Piece.values filled⟩ := by
  obtain ⟨segments, hsplits, hpieces⟩ := exists_segments_of_pieces h
  have hread := Segment.ofChars_eq_ok.2 (Segment.splits_of_pieces hsplits hpieces).1
  have hfill := Segment.fill_segments dialect (Segment.filterMap_value?_of_pieces hpieces)
    fun scalar hscalar => Bindings.get?_numbered hscalar
  refine bind_eq_ok.2 ⟨_, hread, bind_eq_ok.2 ⟨_, hfill, ?_⟩⟩
  simp [pure, Except.pure]

end Query

/-! ### Forms without slots -/

theorem Dialect.colon_notMem_placeholder {dialect : Dialect} (h : dialect ≠ .oracle)
    (position : Nat) : ':' ∉ (dialect.placeholder position).toList := by
  have hposition : ':' ∉ (toString position).toList :=
    colon_notMem_of_isPlain (isWord_toString position).isPlain
  cases dialect with
  | postgres => simpa [placeholder] using hposition
  | mySql => simp [placeholder]
  | msSql => simpa [placeholder] using hposition
  | oracle => exact absurd rfl h

theorem Piece.colon_notMem_listing (h : dialect ≠ .oracle) (number : Nat)
    (scalars : List Scalar) : ':' ∉ (spell dialect (listing number scalars)).toList := by
  induction scalars generalizing number with
  | nil => simp [listing]
  | cons scalar scalars ih =>
      have hplaceholder := Dialect.colon_notMem_placeholder h number
      cases scalars with
      | nil => simpa [listing] using hplaceholder
      | cons next scalars =>
          rw [listing_cons_cons, spell_cons, spell_cons, String.toList_append,
            String.toList_append, List.mem_append, List.mem_append, not_or, not_or]
          exact ⟨hplaceholder, by simp, ih (number + 1)⟩

theorem Segment.colon_notMem_of_pieces (h : dialect ≠ .oracle) {position : Nat} {cs : List Char}
    {segments : List Segment} {filled : List Piece} (hsplits : Splits cs segments)
    (hpieces : pieces bindings position segments = .ok filled) :
    ':' ∉ (Piece.spell dialect filled).toList := by
  induction hsplits generalizing position filled with
  | nil =>
      obtain rfl := Except.ok.inj hpieces
      simp
  | @char c rest segments hc hrest ih =>
      obtain ⟨filled, hfilled, rfl⟩ := map_eq_ok.1 hpieces
      rw [Piece.spell_cons, String.toList_append, List.mem_append, not_or]
      exact ⟨by simpa using hc.symm, ih hfilled⟩
  | @slot name spread rest segments hname hstops hrest ih =>
      obtain ⟨argument, filled, hfilled, rfl⟩ := pieces_slot_eq_ok hpieces
      rw [Piece.spell_append, String.toList_append, List.mem_append, not_or]
      exact ⟨Piece.colon_notMem_listing h position argument.values, ih hfilled⟩

namespace Query

variable {query : Query}

/-- A text without a colon has no slots to fill. -/
theorem positional_of_colon_notMem {sql : String} (h : ':' ∉ sql.toList) (bindings : Bindings)
    (tables : List String) (dialect : Dialect) :
    positional ⟨sql, bindings, tables⟩ dialect = .ok ⟨sql, []⟩ := by
  have hread : Segment.ofChars sql.toList = .ok (sql.toList.map .char ++ []) := by
    have hempty : Segment.ofChars [] = .ok [] := by rw [Segment.ofChars]
    simpa using Segment.ofChars_append_of_notMem h hempty
  have hfill := Segment.fill_chars_append dialect bindings 1 sql.toList []
  refine bind_eq_ok.2 ⟨_, hread, bind_eq_ok.2 ⟨_, hfill.trans rfl, ?_⟩⟩
  simp [pure, Except.pure]

theorem pieces_of_positional {dialect : Dialect} {positional : PositionalQuery}
    (h : query.positional dialect = .ok positional) :
    ∃ filled, query.pieces = .ok filled ∧
      positional = ⟨Piece.spell dialect filled, Piece.values filled⟩ := by
  rw [positional_eq_map_pieces] at h
  obtain ⟨filled, hfilled, heq⟩ := map_eq_ok.1 h
  exact ⟨filled, hfilled, heq.symm⟩

/-- Whether a query has a positional form, its values and its fault do not depend on the dialect:
the forms are one list of pieces, spelled in each dialect. The Oracle form with the values under
their numbers has the same positional forms as the query itself. The other forms hold no colon and
stay as they are, whatever is bound. -/
theorem positional_dialects (query : Query) :
    (∀ dialect positional, query.positional dialect = .ok positional →
      ∃ pieces, ∀ other,
        query.positional other = .ok ⟨Piece.spell other pieces, positional.values⟩) ∧
    (∀ dialect fault, query.positional dialect = .error fault →
      ∀ other, query.positional other = .error fault) ∧
    (∀ positional, query.positional .oracle = .ok positional →
      ∀ tables dialect, (positional.numbered tables).positional dialect =
        query.positional dialect) ∧
    ∀ dialect positional, dialect ≠ .oracle → query.positional dialect = .ok positional →
      ':' ∉ positional.sql.toList ∧ ∀ bindings tables other,
        Query.positional ⟨positional.sql, bindings, tables⟩ other = .ok ⟨positional.sql, []⟩ := by
  refine ⟨?_, ?_, ?_, ?_⟩
  · intro dialect positional h
    obtain ⟨filled, hfilled, rfl⟩ := pieces_of_positional h
    refine ⟨filled, fun other => ?_⟩
    rw [positional_eq_map_pieces, hfilled]
    rfl
  · intro dialect fault h other
    rw [positional_eq_map_pieces, map_eq_error] at h ⊢
    exact h
  · intro positional h tables dialect
    obtain ⟨filled, hfilled, rfl⟩ := pieces_of_positional h
    rw [positional_numbered hfilled, positional_eq_map_pieces, hfilled]
    rfl
  · intro dialect positional hdialect h
    obtain ⟨filled, hfilled, rfl⟩ := pieces_of_positional h
    obtain ⟨segments, hsplits, hpieces⟩ := exists_segments_of_pieces hfilled
    have hcolon := Segment.colon_notMem_of_pieces hdialect hsplits hpieces
    exact ⟨hcolon, fun bindings tables other => positional_of_colon_notMem hcolon _ _ _⟩

/-- Adjacent slots, an empty list behind a slot and a name that is used twice; a name that is bound
to one value and used for a list. -/
theorem positional_dialects_adjacent :
    let bindings : Bindings :=
      ⟨[("x", .one (.int 7)), ("l", .many [.null, .text ":y"]), ("e", .many [])]⟩
    let query : Query := ⟨"a:x:...e:...l :x(:...e)0", bindings, []⟩
    let faulty : Query := ⟨":x :...x", bindings, []⟩
    ∃ positional other, query.positional .oracle = .ok positional ∧
      positional.sql = "a:1:2, :3 :4()0" ∧
      (∀ dialect, (positional.numbered []).positional dialect = query.positional dialect) ∧
      (∃ pieces, ∀ dialect, query.positional dialect =
        .ok ⟨Piece.spell dialect pieces, [.int 7, .null, .text ":y", .int 7]⟩) ∧
      query.positional .msSql = .ok other ∧ other.sql = "a@P1@P2, @P3 @P4()0" ∧
      ':' ∉ other.sql.toList ∧
      Query.positional ⟨other.sql, bindings, []⟩ .oracle = .ok ⟨other.sql, []⟩ ∧
      faulty.positional .mySql = .error (.wrongShape "x") ∧
      faulty.positional .oracle = .error (.wrongShape "x") := by
  intro bindings query faulty
  obtain ⟨positional, hpositional, hsql, hvalues⟩ : ∃ positional,
      query.positional .oracle = .ok positional ∧ positional.sql = "a:1:2, :3 :4()0" ∧
        positional.values = [.int 7, .null, .text ":y", .int 7] := ⟨_, by cbv, by cbv, by cbv⟩
  obtain ⟨other, hother, hotherSql⟩ : ∃ other,
      query.positional .msSql = .ok other ∧ other.sql = "a@P1@P2, @P3 @P4()0" :=
    ⟨_, by cbv, by cbv⟩
  have hfault : faulty.positional .mySql = .error (.wrongShape "x") := by cbv
  obtain ⟨hspelled, -, hnumbered, hplain⟩ := positional_dialects query
  obtain ⟨pieces, hpieces⟩ := hspelled .oracle positional hpositional
  obtain ⟨hcolon, hstays⟩ := hplain .msSql other (by decide) hother
  rw [hvalues] at hpieces
  exact ⟨positional, other, hpositional, hsql, hnumbered positional hpositional [],
    ⟨pieces, hpieces⟩, hother, hotherSql, hcolon, hstays bindings [] .oracle, hfault,
    (positional_dialects faulty).2.1 .mySql _ hfault .oracle⟩

end Query

end FilterSql
