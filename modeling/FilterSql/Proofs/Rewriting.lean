import FilterSql.Proofs.Identifiers
import FilterSql.Proofs.Positional

/-! Positional rewriting of any text. What stands behind a colon decides whether it starts a slot;
the text is rewritten when every colon does and every name is bound to what its slot takes.
Everything around the slots stays, and the placeholders count the values from left to right. -/

namespace FilterSql

theorem exists_append_of_notMem {α : Type} {text rest before after : List α} {c : α}
    (htext : c ∉ text) (h : text ++ rest = before ++ c :: after) :
    ∃ front, before = text ++ front ∧ rest = front ++ c :: after := by
  induction text generalizing before with
  | nil => exact ⟨before, rfl, h⟩
  | cons first text ih =>
      rw [List.mem_cons, not_or] at htext
      cases before with
      | nil => exact absurd (List.cons.inj h).1.symm htext.1
      | cons head before =>
          obtain ⟨rfl, htail⟩ := List.cons.inj h
          obtain ⟨front, rfl, hrest⟩ := ih htext.2 htail
          exact ⟨front, rfl, hrest⟩

/-! ### Slots -/

namespace Segment

/-- What marks a slot that takes a list. -/
def dots (spread : Bool) : List Char := if spread then ['.', '.', '.'] else []

/-- The characters start with the name of a slot: the longest run of word characters, which is not
empty, behind three dots if the slot takes a list. -/
def Names (cs : List Char) (name : String) (spread : Bool) : Prop :=
  IsWord name ∧ ∃ rest, Stops isWordChar rest ∧ cs = dots spread ++ (name.toList ++ rest)

theorem readSlot?_dots {name : String} {spread : Bool} {rest : List Char} (hname : IsWord name)
    (hrest : Stops isWordChar rest) :
    readSlot? (dots spread ++ (name.toList ++ rest)) = some (.slot name spread, rest) := by
  cases spread with
  | false => exact readSlot?_word hname hrest
  | true => exact readSlot?_spread hname hrest

theorem exists_names_of_readSlot? {cs rest : List Char} {segment : Segment}
    (h : readSlot? cs = some (segment, rest)) :
    ∃ name spread, segment = .slot name spread ∧ IsWord name ∧ Stops isWordChar rest ∧
      cs = dots spread ++ (name.toList ++ rest) := by
  unfold readSlot? at h
  split at h
  · obtain ⟨⟨word, left⟩, hword, hpair⟩ := Option.map_eq_some_iff.1 h
    obtain ⟨rfl, rfl⟩ := Prod.mk.inj hpair
    obtain ⟨hne, hall, rfl⟩ := Identifier.readWord?_eq_some hword
    exact ⟨String.ofList word, true, rfl, isWord_ofList hne hall,
      Identifier.stops_of_readWord? hword, by simp [dots]⟩
  · obtain ⟨⟨word, left⟩, hword, hpair⟩ := Option.map_eq_some_iff.1 h
    obtain ⟨rfl, rfl⟩ := Prod.mk.inj hpair
    obtain ⟨hne, hall, rfl⟩ := Identifier.readWord?_eq_some hword
    exact ⟨String.ofList word, false, rfl, isWord_ofList hne hall,
      Identifier.stops_of_readWord? hword, by simp [dots]⟩

theorem Names.unique {cs : List Char} {name name' : String} {spread spread' : Bool}
    (h : Names cs name spread) (h' : Names cs name' spread') : name = name' ∧ spread = spread' := by
  obtain ⟨hname, rest, hrest, rfl⟩ := h
  obtain ⟨hname', rest', hrest', heq⟩ := h'
  have hread : readSlot? (dots spread ++ (name.toList ++ rest)) = some (.slot name spread, rest) :=
    readSlot?_dots hname hrest
  rw [heq, readSlot?_dots hname' hrest'] at hread
  simp only [Option.some.injEq, Prod.mk.injEq, slot.injEq] at hread
  exact ⟨hread.1.1.symm, hread.1.2.symm⟩

/-- The segments that the characters consist of: every colon starts a slot, whose name goes on as
long as word characters follow. -/
inductive Splits : List Char → List Segment → Prop where
  | nil : Splits [] []
  | char {c : Char} {rest : List Char} {segments : List Segment} (hc : c ≠ ':')
      (h : Splits rest segments) : Splits (c :: rest) (.char c :: segments)
  | slot {name : String} {spread : Bool} {rest : List Char} {segments : List Segment}
      (hname : IsWord name) (hrest : Stops isWordChar rest) (h : Splits rest segments) :
      Splits (':' :: (dots spread ++ (name.toList ++ rest))) (.slot name spread :: segments)

theorem ofChars_eq_ok {cs : List Char} {segments : List Segment} :
    ofChars cs = .ok segments ↔ Splits cs segments := by
  constructor
  · intro h
    fun_induction ofChars cs generalizing segments with
    | case1 =>
        obtain rfl := Except.ok.inj h
        exact .nil
    | case2 => simp at h
    | case3 tail segment rest hslot _ ih =>
        obtain ⟨segments, hsegments, rfl⟩ := map_eq_ok.1 h
        obtain ⟨name, spread, rfl, hname, hrest, rfl⟩ := exists_names_of_readSlot? hslot
        exact .slot hname hrest (ih hsegments)
    | case4 c tail hc ih =>
        obtain ⟨segments, hsegments, rfl⟩ := map_eq_ok.1 h
        exact .char (fun heq => hc heq) (ih hsegments)
  · intro h
    induction h with
    | nil => rw [ofChars]
    | @char c rest segments hc h ih =>
        have hcolon : ':' ∉ [c] := by simpa using hc.symm
        exact ofChars_append_of_notMem hcolon ih
    | slot hname hrest h ih => exact ofChars_of_readSlot? (readSlot?_dots hname hrest) ih

/-- A text without a reading has a colon that starts no slot, and the fault shows it. -/
theorem exists_colon_of_ofChars_eq_error {cs : List Char} {fault : SlotFault}
    (h : ofChars cs = .error fault) :
    ∃ before after, cs = before ++ ':' :: after ∧ (∀ name spread, ¬ Names after name spread) ∧
      fault = .unreadable (String.ofList (':' :: after)) := by
  fun_induction ofChars cs with
  | case1 => simp at h
  | case2 tail hslot =>
      refine ⟨[], tail, rfl, ?_, (Except.error.inj h).symm⟩
      rintro name spread ⟨hname, rest, hrest, rfl⟩
      rw [readSlot?_dots hname hrest] at hslot
      contradiction
  | case3 tail segment rest hslot _ ih =>
      obtain ⟨before, after, rfl, hnames, hfault⟩ := ih (map_eq_error.1 h)
      obtain ⟨name, spread, rfl, hname, hrest, rfl⟩ := exists_names_of_readSlot? hslot
      exact ⟨':' :: (dots spread ++ (name.toList ++ before)), after, by simp, hnames, hfault⟩
  | case4 c tail hc ih =>
      obtain ⟨before, after, rfl, hnames, hfault⟩ := ih (map_eq_error.1 h)
      exact ⟨c :: before, after, rfl, hnames, hfault⟩

namespace Splits

variable {cs : List Char} {segments : List Segment}

theorem exists_slot (h : Splits cs segments) {before after : List Char}
    (hcs : cs = before ++ ':' :: after) :
    ∃ name spread, .slot name spread ∈ segments ∧ Names after name spread := by
  induction h generalizing before with
  | nil => simp at hcs
  | @char c rest segments hc h ih =>
      have hcolon : ':' ∉ [c] := by simpa using hc.symm
      obtain ⟨front, -, hrest⟩ := exists_append_of_notMem hcolon hcs
      obtain ⟨name, spread, hslot, hnames⟩ := ih hrest
      exact ⟨name, spread, List.mem_cons_of_mem _ hslot, hnames⟩
  | @slot name spread rest segments hname hrest h ih =>
      cases before with
      | nil =>
          obtain ⟨-, rfl⟩ := List.cons.inj hcs
          exact ⟨name, spread, List.mem_cons_self, hname, rest, hrest, rfl⟩
      | cons first before =>
          -- no colon stands within a slot
          have hcolon : ':' ∉ dots spread ++ name.toList := by
            rw [List.mem_append, not_or]
            refine ⟨by cases spread <;> simp [dots], colon_notMem_of_isPlain hname.isPlain⟩
          obtain ⟨-, htail⟩ := List.cons.inj hcs
          rw [← List.append_assoc] at htail
          obtain ⟨front, -, hfront⟩ := exists_append_of_notMem hcolon htail
          obtain ⟨name', spread', hslot, hnames⟩ := ih hfront
          exact ⟨name', spread', List.mem_cons_of_mem _ hslot, hnames⟩

theorem exists_colon (h : Splits cs segments) {name : String} {spread : Bool}
    (hslot : .slot name spread ∈ segments) :
    ∃ before after, cs = before ++ ':' :: after ∧ Names after name spread := by
  induction h with
  | nil => simp at hslot
  | @char c rest segments hc h ih =>
      obtain ⟨before, after, rfl, hnames⟩ := ih (by simpa using hslot)
      exact ⟨c :: before, after, rfl, hnames⟩
  | @slot name' spread' rest segments hname hrest h ih =>
      rcases List.mem_cons.1 hslot with heq | hslot
      · obtain ⟨rfl, rfl⟩ := Segment.slot.inj heq
        exact ⟨[], _, rfl, hname, rest, hrest, rfl⟩
      · obtain ⟨before, after, rfl, hnames⟩ := ih hslot
        exact ⟨':' :: (dots spread' ++ (name'.toList ++ before)), after, by simp, hnames⟩

end Splits

theorem exists_splits_iff {cs : List Char} :
    (∃ segments, Splits cs segments) ↔
      ∀ before after, cs = before ++ ':' :: after → ∃ name spread, Names after name spread := by
  constructor
  · rintro ⟨segments, h⟩ before after hcs
    obtain ⟨name, spread, -, hnames⟩ := h.exists_slot hcs
    exact ⟨name, spread, hnames⟩
  · intro h
    cases hread : ofChars cs with
    | ok segments => exact ⟨segments, ofChars_eq_ok.1 hread⟩
    | error fault =>
        obtain ⟨before, after, hcs, hnames, -⟩ := exists_colon_of_ofChars_eq_error hread
        obtain ⟨name, spread, hname⟩ := h before after hcs
        exact absurd hname (hnames name spread)

end Segment

/-! ### Placeholders -/

/-- The parts of a positional text. A placeholder stands for a value. -/
inductive Piece where
  | text (written : String)
  | placeholder (number : Nat) (value : Scalar)
  deriving DecidableEq

namespace Piece

/-- A piece as it is written. One of the dialects does not show the number of a placeholder. -/
def sql (dialect : Dialect) : Piece → String
  | .text written => written
  | .placeholder number _ =>
    match dialect with
    | .postgres => "$" ++ toString number
    | .mySql => "?"
    | .msSql => "@P" ++ toString number
    | .oracle => ":" ++ toString number

@[simp] theorem sql_text (dialect : Dialect) (written : String) :
    (text written).sql dialect = written := rfl

/-- The placeholders that are filled in are those of the dialect. -/
@[simp] theorem sql_placeholder (dialect : Dialect) (number : Nat) (value : Scalar) :
    (placeholder number value).sql dialect = dialect.placeholder number := by
  cases dialect <;> rfl

/-- The value of a placeholder with its number. -/
def value? : Piece → Option (Scalar × Nat)
  | .text _ => none
  | .placeholder number value => some (value, number)

/-- Placeholders with commas in between, the first of which has the number. -/
def listing (number : Nat) (values : List Scalar) : List Piece :=
  ((values.zipIdx number).map fun value => .placeholder value.2 value.1).intersperse (.text ", ")

theorem listing_cons_cons (number : Nat) (value next : Scalar) (values : List Scalar) :
    listing number (value :: next :: values) =
      .placeholder number value :: .text ", " :: listing (number + 1) (next :: values) := by
  simp [listing]

theorem join_sql_listing (dialect : Dialect) (number : Nat) (values : List Scalar) :
    String.join ((listing number values).map (sql dialect)) =
      ", ".intercalate ((List.range' number values.length).map dialect.placeholder) := by
  induction values generalizing number with
  | nil => rfl
  | cons value values ih =>
      cases values with
      | nil => simp [listing]
      | cons next values =>
          rw [listing_cons_cons, List.map_cons, List.map_cons, String.join_cons, String.join_cons,
            ih]
          simp [List.range'_succ, String.intercalate_cons_cons, String.append_assoc]

theorem filterMap_value?_listing (number : Nat) (values : List Scalar) :
    (listing number values).filterMap value? = values.zipIdx number := by
  induction values generalizing number with
  | nil => rfl
  | cons value values ih =>
      cases values with
      | nil => rfl
      | cons next values =>
          rw [listing_cons_cons, List.zipIdx_cons, ← ih]
          rfl

end Piece

/-- The name is bound to what the slot takes. -/
def Bindings.Binds (bindings : Bindings) (name : String) (spread : Bool) : Prop :=
  ∃ argument, bindings.get? name = some argument ∧ argument.isMany = spread

/-- What is wrong with a slot whose name is not bound to what it takes. -/
def Bindings.slotFault (bindings : Bindings) (name : String) : SlotFault :=
  if bindings.contains name then .wrongShape name else .unknown name

theorem Bindings.slotFault_ne_unreadable (bindings : Bindings) (name rest : String) :
    bindings.slotFault name ≠ .unreadable rest := by
  unfold slotFault
  split <;> simp

namespace Segment

variable {dialect : Dialect} {bindings : Bindings}

/-- The pieces that a segment becomes: a character stays, a slot for one value becomes a placeholder
for it, a slot for a list one placeholder for each member. -/
inductive Fills (bindings : Bindings) : Segment → List Piece → Prop where
  | char (c : Char) : Fills bindings (.char c) [.text (String.singleton c)]
  | one {name : String} {value : Scalar} (number : Nat)
      (h : bindings.get? name = some (.one value)) :
      Fills bindings (.slot name false) [.placeholder number value]
  | many {name : String} {values : List Scalar} (number : Nat)
      (h : bindings.get? name = some (.many values)) :
      Fills bindings (.slot name true) (Piece.listing number values)

theorem Fills.binds {name : String} {spread : Bool} {pieces : List Piece}
    (h : Fills bindings (.slot name spread) pieces) : bindings.Binds name spread := by
  cases h with
  | one number h => exact ⟨_, h, rfl⟩
  | many number h => exact ⟨_, h, rfl⟩

theorem fills_slot {name : String} {argument : Argument} (number : Nat)
    (h : bindings.get? name = some argument) :
    Fills bindings (.slot name argument.isMany) (Piece.listing number argument.values) := by
  cases argument with
  | one value => exact .one number h
  | many values => exact .many number h

theorem fill_slot {name : String} {argument : Argument} (position : Nat)
    (segments : List Segment) (h : bindings.get? name = some argument) :
    fill dialect bindings position (.slot name argument.isMany :: segments) =
      (fill dialect bindings (position + argument.values.length) segments).map fun filled =>
        ((String.join ((Piece.listing position argument.values).map
          (Piece.sql dialect))).toList ++ filled.1, argument.values ++ filled.2) := by
  cases argument with
  | one value =>
      simp only [fill, h, Argument.isMany, Argument.values, Piece.join_sql_listing]
      cases fill dialect bindings (position + 1) segments <;> rfl
  | many values =>
      simp only [fill, h, Argument.isMany, Argument.values, Piece.join_sql_listing]
      cases fill dialect bindings (position + values.length) segments <;> rfl

theorem fill_slot_of_not_binds {name : String} {spread : Bool} (position : Nat)
    (segments : List Segment) (h : ¬ bindings.Binds name spread) :
    fill dialect bindings position (.slot name spread :: segments) =
      .error (bindings.slotFault name) := by
  cases hget : bindings.get? name with
  | none => simp [fill, Bindings.slotFault, Bindings.contains, hget]
  | some argument =>
      have hshape : argument.isMany ≠ spread := fun heq => h ⟨argument, hget, heq⟩
      cases argument <;> cases spread <;>
        simp_all [fill, Bindings.slotFault, Bindings.contains, Argument.isMany]

/-- Filling fails only at a slot whose name is not bound to what the slot takes. -/
theorem exists_slot_of_fill_eq_error {position : Nat} {segments : List Segment} {fault : SlotFault}
    (h : fill dialect bindings position segments = .error fault) :
    ∃ name spread, .slot name spread ∈ segments ∧ ¬ bindings.Binds name spread ∧
      fault = bindings.slotFault name := by
  induction segments generalizing position with
  | nil => simp [fill] at h
  | cons segment segments ih =>
      cases segment with
      | char c =>
          rcases bind_eq_error.1 h with hrest | ⟨filled, -, h⟩
          · obtain ⟨name, spread, hslot, hfault⟩ := ih hrest
            exact ⟨name, spread, List.mem_cons_of_mem _ hslot, hfault⟩
          · exact absurd h pure_ne_error
      | slot name spread =>
          by_cases hbinds : bindings.Binds name spread
          · obtain ⟨argument, hget, rfl⟩ := hbinds
            rw [fill_slot position segments hget, map_eq_error] at h
            obtain ⟨name', spread', hslot, hfault⟩ := ih h
            exact ⟨name', spread', List.mem_cons_of_mem _ hslot, hfault⟩
          · rw [fill_slot_of_not_binds position segments hbinds] at h
            exact ⟨name, spread, List.mem_cons_self, hbinds, (Except.error.inj h).symm⟩

/-- What is filled in stands segment by segment, and its placeholders count the values. -/
theorem exists_pieces_of_fill {position : Nat} {segments : List Segment} {text : List Char}
    {values : List Scalar} (h : fill dialect bindings position segments = .ok (text, values)) :
    ∃ groups, List.Forall₂ (Fills bindings) segments groups ∧
      text = (String.join (groups.flatten.map (Piece.sql dialect))).toList ∧
      groups.flatten.filterMap Piece.value? = values.zipIdx position := by
  induction segments generalizing position text values with
  | nil =>
      obtain ⟨rfl, rfl⟩ := Prod.mk.inj (Except.ok.inj h)
      exact ⟨[], .nil, rfl, rfl⟩
  | cons segment segments ih =>
      cases segment with
      | char c =>
          obtain ⟨⟨front, more⟩, hfill, h⟩ := bind_eq_ok.1 h
          obtain ⟨rfl, rfl⟩ := Prod.mk.inj (pure_eq_ok.1 h)
          obtain ⟨groups, hgroups, rfl, hvalues⟩ := ih hfill
          refine ⟨[.text (String.singleton c)] :: groups, .cons (.char c) hgroups, ?_, hvalues⟩
          simp [String.join_cons]
      | slot name spread =>
          by_cases hbinds : bindings.Binds name spread
          · obtain ⟨argument, hget, rfl⟩ := hbinds
            rw [fill_slot position segments hget] at h
            obtain ⟨⟨front, more⟩, hfill, h⟩ := map_eq_ok.1 h
            obtain ⟨rfl, rfl⟩ := Prod.mk.inj h
            obtain ⟨groups, hgroups, rfl, hvalues⟩ := ih hfill
            refine ⟨_ :: groups, .cons (fills_slot position hget) hgroups, ?_, ?_⟩
            · simp only [List.flatten_cons, List.map_append, String.toList_join,
                List.flatMap_append]
            · rw [List.flatten_cons, List.filterMap_append, hvalues,
                Piece.filterMap_value?_listing, List.zipIdx_append]
          · rw [fill_slot_of_not_binds position segments hbinds] at h
            simp at h

end Segment

namespace Query

open Segment

theorem positional_eq_error {query : Query} {dialect : Dialect} {fault : SlotFault}
    (h : query.positional dialect = .error fault) :
    (∃ before after, query.sql.toList = before ++ ':' :: after ∧
        (∀ name spread, ¬ Names after name spread) ∧
        fault = .unreadable (String.ofList (':' :: after))) ∨
      (∃ segments, Splits query.sql.toList segments) ∧
        ∃ before after name spread, query.sql.toList = before ++ ':' :: after ∧
          Names after name spread ∧ ¬ query.bindings.Binds name spread ∧
          fault = query.bindings.slotFault name := by
  rcases bind_eq_error.1 h with hread | ⟨segments, hread, h⟩
  · exact .inl (exists_colon_of_ofChars_eq_error hread)
  · have hsplits := ofChars_eq_ok.1 hread
    rcases bind_eq_error.1 h with hfill | ⟨filled, -, h⟩
    · obtain ⟨name, spread, hslot, hbinds, hfault⟩ := exists_slot_of_fill_eq_error hfill
      obtain ⟨before, after, hcs, hnames⟩ := hsplits.exists_colon hslot
      exact .inr ⟨⟨segments, hsplits⟩, before, after, name, spread, hcs, hnames, hbinds, hfault⟩
    · exact absurd h pure_ne_error

theorem exists_pieces_of_positional {query : Query} {dialect : Dialect}
    {positional : PositionalQuery} (h : query.positional dialect = .ok positional) :
    ∃ segments groups, Splits query.sql.toList segments ∧
      List.Forall₂ (Fills query.bindings) segments groups ∧
      positional.sql = String.join (groups.flatten.map (Piece.sql dialect)) ∧
      groups.flatten.filterMap Piece.value? = positional.values.zipIdx 1 := by
  obtain ⟨segments, hread, h⟩ := bind_eq_ok.1 h
  obtain ⟨⟨text, values⟩, hfill, h⟩ := bind_eq_ok.1 h
  obtain rfl := pure_eq_ok.1 h
  obtain ⟨groups, hgroups, rfl, hvalues⟩ := exists_pieces_of_fill hfill
  exact ⟨segments, groups, ofChars_eq_ok.1 hread, hgroups, String.ofList_toList, hvalues⟩

theorem exists_positional_iff {query : Query} {dialect : Dialect} :
    (∃ positional, query.positional dialect = .ok positional) ↔
      ∀ before after, query.sql.toList = before ++ ':' :: after →
        ∃ name spread, Names after name spread ∧ query.bindings.Binds name spread := by
  constructor
  · rintro ⟨positional, h⟩ before after hcs
    obtain ⟨segments, groups, hsplits, hgroups, -, -⟩ := exists_pieces_of_positional h
    obtain ⟨name, spread, hslot, hnames⟩ := hsplits.exists_slot hcs
    obtain ⟨pieces, -, hfills⟩ := exists_mem_of_forall₂ (List.Forall₂.flip hgroups) hslot
    exact ⟨name, spread, hnames, hfills.binds⟩
  · intro hcolons
    cases h : query.positional dialect with
    | ok positional => exact ⟨positional, rfl⟩
    | error fault =>
        rcases positional_eq_error h with ⟨before, after, hcs, hnone, -⟩ |
          ⟨-, before, after, name, spread, hcs, hnames, hbinds, -⟩
        · obtain ⟨name, spread, hnames, -⟩ := hcolons before after hcs
          exact absurd hnames (hnone name spread)
        · obtain ⟨name', spread', hnames', hbinds'⟩ := hcolons before after hcs
          obtain ⟨rfl, rfl⟩ := hnames.unique hnames'
          exact absurd hbinds' hbinds

/-- Whether a text can be read does not depend on what its names are bound to. -/
theorem exists_unreadable_iff {query : Query} {dialect : Dialect} :
    (∃ rest, query.positional dialect = .error (.unreadable rest)) ↔
      ∃ before after, query.sql.toList = before ++ ':' :: after ∧
        ∀ name spread, ¬ Names after name spread := by
  constructor
  · rintro ⟨rest, h⟩
    rcases positional_eq_error h with ⟨before, after, hcs, hnone, -⟩ |
      ⟨-, -, -, name, -, -, -, -, hfault⟩
    · exact ⟨before, after, hcs, hnone⟩
    · exact absurd hfault.symm (query.bindings.slotFault_ne_unreadable name rest)
  · rintro ⟨before, after, hcs, hnone⟩
    have hunread : ¬ ∃ segments, Splits query.sql.toList segments := by
      rw [exists_splits_iff]
      intro hcolons
      obtain ⟨name, spread, hnames⟩ := hcolons before after hcs
      exact hnone name spread hnames
    cases h : query.positional dialect with
    | ok positional =>
        obtain ⟨segments, -, hsplits, -⟩ := exists_pieces_of_positional h
        exact absurd ⟨segments, hsplits⟩ hunread
    | error fault =>
        rcases positional_eq_error h with ⟨-, after, -, -, rfl⟩ | ⟨hsplits, -⟩
        · exact ⟨_, rfl⟩
        · exact absurd hsplits hunread

/-- A text is rewritten exactly when every colon in it starts a slot whose name, a longest run of
ASCII letters, digits and underscores, is bound to what the slot takes. Then the characters around
the slots stay, and in the place of each slot stand placeholders of the dialect for its values,
numbered through from left to right in the order of the values. A colon that starts no slot is
reported before any name that is not bound as it is used. -/
theorem positional_rewrites_slots (query : Query) (dialect : Dialect) :
    (∀ c, isWordChar c = true ↔ c ∈ wordAlphabet) ∧
    ((∃ positional, query.positional dialect = .ok positional) ↔
      ∀ before after, query.sql.toList = before ++ ':' :: after →
        ∃ name spread, Names after name spread ∧ query.bindings.Binds name spread) ∧
    (∀ positional, query.positional dialect = .ok positional →
      ∃ segments groups, Splits query.sql.toList segments ∧
        List.Forall₂ (Fills query.bindings) segments groups ∧
        positional.sql = String.join (groups.flatten.map (Piece.sql dialect)) ∧
        groups.flatten.filterMap Piece.value? = positional.values.zipIdx 1) ∧
    ((∃ rest, query.positional dialect = .error (.unreadable rest)) ↔
      ∃ before after, query.sql.toList = before ++ ':' :: after ∧
        ∀ name spread, ¬ Names after name spread) ∧
    ∀ fault, query.positional dialect = .error fault → (∃ rest, fault = .unreadable rest) ∨
      ∃ before after name spread, query.sql.toList = before ++ ':' :: after ∧
        Names after name spread ∧ ¬ query.bindings.Binds name spread ∧
        fault = query.bindings.slotFault name := by
  refine ⟨fun _ => isWordChar_iff, exists_positional_iff, fun _ h => exists_pieces_of_positional h,
    exists_unreadable_iff, ?_⟩
  intro fault h
  rcases positional_eq_error h with ⟨-, after, -, -, rfl⟩ | ⟨-, hslot⟩
  · exact .inl ⟨_, rfl⟩
  · exact .inr hslot

/-- Adjacent slots, a name that is used twice, a list of two and an empty one, in every dialect; an
unknown name in front of a colon that starts no slot, and a list in the place of one value. -/
theorem positional_rewrites_slots_repeated :
    let bindings : Bindings :=
      ⟨[("x", .one (.int 7)), ("l", .many [.null, .text ":y"]), ("e", .many [])]⟩
    let query : Query := ⟨"a:x:...l ,:x(:...e)", bindings, []⟩
    let values : List Scalar := [.int 7, .null, .text ":y", .int 7]
    let isRewritten : Dialect → String → Prop := fun dialect sql =>
      query.positional dialect = .ok ⟨sql, values⟩ ∧
        ∃ segments groups, Splits query.sql.toList segments ∧
          List.Forall₂ (Fills bindings) segments groups ∧
          sql = String.join (groups.flatten.map (Piece.sql dialect)) ∧
          groups.flatten.filterMap Piece.value? = values.zipIdx 1
    let broken : Query := ⟨":y ::x", bindings, []⟩
    let misused : Query := ⟨":l", bindings, []⟩
    isRewritten .postgres "a$1$2, $3 ,$4()" ∧ isRewritten .mySql "a??, ? ,?()" ∧
      isRewritten .msSql "a@P1@P2, @P3 ,@P4()" ∧ isRewritten .oracle "a:1:2, :3 ,:4()" ∧
      broken.positional .msSql = .error (.unreadable "::x") ∧
      (∃ before after, broken.sql.toList = before ++ ':' :: after ∧
        ∀ name spread, ¬ Names after name spread) ∧
      misused.positional .msSql = .error (.wrongShape "l") ∧
      ∃ before after name spread, misused.sql.toList = before ++ ':' :: after ∧
        Names after name spread ∧ ¬ bindings.Binds name spread := by
  intro bindings query values isRewritten broken misused
  have hrewritten : ∀ dialect sql, query.positional dialect = .ok ⟨sql, values⟩ →
      isRewritten dialect sql := by
    intro dialect sql h
    obtain ⟨-, -, hpieces, -⟩ := positional_rewrites_slots query dialect
    exact ⟨h, hpieces _ h⟩
  have hbroken : broken.positional .msSql = .error (.unreadable "::x") := by cbv
  have hmisused : misused.positional .msSql = .error (.wrongShape "l") := by cbv
  obtain ⟨-, -, -, hunreadable, -⟩ := positional_rewrites_slots broken .msSql
  obtain ⟨-, -, -, -, hfault⟩ := positional_rewrites_slots misused .msSql
  refine ⟨hrewritten _ _ (by cbv), hrewritten _ _ (by cbv), hrewritten _ _ (by cbv),
    hrewritten _ _ (by cbv), hbroken, hunreadable.1 ⟨_, hbroken⟩, hmisused, ?_⟩
  rcases hfault _ hmisused with
    ⟨rest, hrest⟩ | ⟨before, after, name, spread, hcs, hnames, hbinds, -⟩
  · simp at hrest
  · exact ⟨before, after, name, spread, hcs, hnames, hbinds⟩

end Query

end FilterSql
