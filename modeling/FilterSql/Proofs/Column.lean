import FilterSql.Proofs.Identifiers
import FilterSql.Proofs.Sequence
import FilterSql.Scope

/-! The text of column references. Every reference that a scope gives is made of words, so its text
holds nothing but words, dots and the star that stands for all columns, and a reference to a single
column can be read back from its text. -/

namespace FilterSql

namespace ColumnRef

/-- The table and the column are named by words. -/
def IsNamed : ColumnRef → Prop
  | .path owner segments => IsWord owner ∧ segments ≠ [] ∧ ∀ segment ∈ segments, IsWord segment
  | .all owner => IsWord owner

/-- One column of a table, named by words. -/
def IsSingle (column : ColumnRef) : Prop := column.isAll = false ∧ column.IsNamed

theorem isSingle_path {owner : String} {segments : List String} :
    (path owner segments).IsSingle ↔
      IsWord owner ∧ segments ≠ [] ∧ ∀ segment ∈ segments, IsWord segment := by
  simp [IsSingle, IsNamed, isAll]

theorem IsSingle.exists_path {column : ColumnRef} (h : column.IsSingle) :
    ∃ owner segments, column = path owner segments := by
  cases column with
  | path owner segments => exact ⟨owner, segments, rfl⟩
  | all owner => exact absurd h.1 (by simp [isAll])

theorem toList_sql_path {owner : String} {segments : List String} (h : segments ≠ []) :
    (path owner segments).sql.toList =
      ['.'].intercalate ((owner :: segments).map String.toList) := by
  simp only [sql, ColumnRef.owner, ColumnRef.segments, String.toList_append,
    String.toList_intercalate, List.map_cons]
  rw [List.intercalate_cons_of_ne_nil (by simpa using h)]
  rfl

theorem sql_path {owner : String} {segments : List String} (h : segments ≠ []) :
    (path owner segments).sql = ".".intercalate (owner :: segments) := by
  rw [← String.toList_inj, toList_sql_path h, String.toList_intercalate]
  rfl

theorem IsSingle.sql_injective {column other : ColumnRef} (h : column.IsSingle)
    (hother : other.IsSingle) (hsql : column.sql = other.sql) : column = other := by
  obtain ⟨owner, segments, rfl⟩ := h.exists_path
  obtain ⟨owner', segments', rfl⟩ := hother.exists_path
  obtain ⟨howner, hne, hwords⟩ := isSingle_path.1 h
  obtain ⟨howner', hne', hwords'⟩ := isSingle_path.1 hother
  rw [sql_path hne, sql_path hne'] at hsql
  -- the alias and the segments are the pieces between the dots
  have hpieces := congrArg Identifier.pieces hsql
  rw [Identifier.pieces_intercalate (by simp) (List.forall_mem_cons.2 ⟨howner, hwords⟩),
    Identifier.pieces_intercalate (by simp) (List.forall_mem_cons.2 ⟨howner', hwords'⟩)] at hpieces
  obtain ⟨rfl, rfl⟩ := List.cons.inj hpieces
  rfl

theorem IsSingle.isPath {column : ColumnRef} (h : column.IsSingle) :
    MadeOf isPathChar column.sql := by
  obtain ⟨owner, segments, rfl⟩ := h.exists_path
  obtain ⟨howner, -, hwords⟩ := isSingle_path.1 h
  refine (howner.isPath.append (by decide)).append (.intercalate (by decide) ?_)
  intro segment hsegment
  exact (hwords segment hsegment).isPath

theorem IsSingle.append_unique {column other : ColumnRef} (h : column.IsSingle)
    (hother : other.IsSingle) {rest rest' : List Char} (hrest : Stops isPathChar rest)
    (hrest' : Stops isPathChar rest')
    (heq : column.sql.toList ++ rest = other.sql.toList ++ rest') :
    column = other ∧ rest = rest' := by
  obtain ⟨hsql, hrests⟩ :=
    FilterSql.append_unique isPathChar h.isPath hother.isPath hrest hrest' heq
  exact ⟨h.sql_injective hother (String.toList_inj.1 hsql), hrests⟩

theorem IsSingle.exists_cons {column : ColumnRef} (h : column.IsSingle) :
    ∃ c cs, column.sql.toList = c :: cs ∧ isWordChar c = true := by
  obtain ⟨owner, segments, rfl⟩ := h.exists_path
  obtain ⟨howner, hne, -⟩ := isSingle_path.1 h
  obtain ⟨c, cs, hcs⟩ := List.exists_cons_of_ne_nil howner.toList_ne_nil
  have hsql : (path owner segments).sql.toList = _ := toList_sql_path hne
  rw [List.map_cons, intercalate_dot, hcs, List.cons_append] at hsql
  exact ⟨c, _, hsql, howner.2 c (by simp [hcs])⟩

/-- An undotted identifier is a column of the owner, whatever that is called. A dotted one is the
text of the column it denotes, and it starts with the owner or with a known alias. -/
theorem resolve_eq_ok {owner : String} {known : String → Bool} {identifier : String}
    {column : ColumnRef} :
    resolve owner known identifier = .ok column ↔
      IsWord identifier ∧ column = path owner [identifier] ∨
        column.IsSingle ∧ identifier = column.sql ∧
          (column.owner = owner ∨ known column.owner = true) := by
  constructor
  · intro h
    unfold resolve at h
    split at h
    · simp at h
    · next aliasName segment segments hread =>
        obtain ⟨-, hwords, htext⟩ := Identifier.path_eq_ok hread
        rw [List.forall_mem_cons] at hwords
        split at h
        · next hknown =>
            obtain rfl := Except.ok.inj h
            rw [Bool.or_eq_true, decide_eq_true_eq] at hknown
            refine .inr ⟨isSingle_path.2 ⟨hwords.1, by simp, hwords.2⟩, ?_, hknown⟩
            rw [sql_path (by simp), htext]
        · simp at h
    · next segments hdotted hread =>
        obtain ⟨hne, hwords, htext⟩ := Identifier.path_eq_ok hread
        obtain rfl := Except.ok.inj h
        rcases segments with _ | ⟨segment, _ | ⟨next, segments⟩⟩
        · exact absurd rfl hne
        · rw [String.intercalate_singleton] at htext
          subst htext
          exact .inl ⟨hwords segment (by simp), rfl⟩
        · exact (hdotted segment next segments rfl).elim
  · rintro (⟨hword, rfl⟩ | ⟨hsingle, rfl, hknown⟩)
    · rw [resolve, Identifier.path_of_isWord hword]
    · obtain ⟨aliasName, segments, rfl⟩ := hsingle.exists_path
      obtain ⟨haliasName, hne, hwords⟩ := isSingle_path.1 hsingle
      have hread : Identifier.path (".".intercalate (aliasName :: segments)) =
          .ok (aliasName :: segments) :=
        Identifier.path_intercalate (by simp) (List.forall_mem_cons.2 ⟨haliasName, hwords⟩)
      obtain ⟨segment, others, rfl⟩ := List.exists_cons_of_ne_nil hne
      rw [resolve, sql_path hne, hread]
      exact if_pos (by simpa [ColumnRef.owner] using hknown)

/-- A dotted identifier brings its alias along, and that is a word like every other segment; an
undotted one stands under the owner, whatever that is called. -/
theorem exists_words_of_resolve {owner : String} {known : String → Bool} {identifier : String}
    {column : ColumnRef} (h : resolve owner known identifier = .ok column) :
    ∃ aliasName segments, column = path aliasName segments ∧
      (IsWord aliasName ∨ aliasName = owner) ∧
        segments ≠ [] ∧ ∀ segment ∈ segments, IsWord segment := by
  rcases resolve_eq_ok.1 h with ⟨hword, rfl⟩ | ⟨hsingle, -, -⟩
  · exact ⟨owner, [identifier], rfl, .inr rfl, by simp, by simpa using hword⟩
  · obtain ⟨aliasName, segments, rfl⟩ := hsingle.exists_path
    obtain ⟨haliasName, hne, hwords⟩ := isSingle_path.1 hsingle
    exact ⟨aliasName, segments, rfl, .inl haliasName, hne, hwords⟩

theorem isSingle_of_resolve {owner : String} {known : String → Bool} {identifier : String}
    {column : ColumnRef} (howner : IsWord owner)
    (h : resolve owner known identifier = .ok column) : column.IsSingle := by
  obtain ⟨aliasName, segments, rfl, haliasName, hne, hwords⟩ := exists_words_of_resolve h
  have hword : IsWord aliasName := haliasName.elim id fun heq => heq ▸ howner
  exact isSingle_path.2 ⟨hword, hne, hwords⟩

theorem isPath_of_resolve {owner : String} {known : String → Bool} {identifier : String}
    {column : ColumnRef} (howner : MadeOf isWordChar owner)
    (h : resolve owner known identifier = .ok column) : MadeOf isPathChar column.sql := by
  obtain ⟨aliasName, segments, rfl, haliasName, hne, hwords⟩ := exists_words_of_resolve h
  have hchars : MadeOf isWordChar aliasName :=
    haliasName.elim (fun hword => hword.2) fun heq => heq ▸ howner
  have hpath : MadeOf isPathChar aliasName := hchars.mono fun c hc => by simp [isPathChar, hc]
  exact (hpath.append (by decide)).append
    (.intercalate (by decide) fun word hword => (hwords word hword).isPath)

end ColumnRef

namespace Scope

/-- All aliases of the scope are words. -/
structure IsNamed (scope : Scope) : Prop where
  main : IsWord scope.main
  joins : ∀ aliasName ∈ scope.joins, IsWord aliasName
  active : ∀ aliasName ∈ scope.active, IsWord aliasName

theorem IsNamed.owner {scope : Scope} (h : scope.IsNamed) : IsWord scope.owner := by
  unfold Scope.owner
  cases hactive : scope.active with
  | none => exact h.main
  | some aliasName => exact h.active aliasName hactive

theorem isSingle_of_column {scope : Scope} (howner : IsWord scope.owner) {identifier : String}
    {column : ColumnRef} (h : scope.column identifier = .ok column) : column.IsSingle :=
  ColumnRef.isSingle_of_resolve howner h

theorem selected_eq_column {scope : Scope} {identifier : String}
    (hstar : identifier.toList.reverse ≠ ['*'])
    (hall : ∀ rest, identifier.toList.reverse ≠ '*' :: '.' :: rest) :
    scope.selected identifier = scope.column identifier := by
  unfold selected
  split
  · next heq => exact absurd heq hstar
  · next heq => exact absurd heq (hall _)
  · rfl

/-- A star belongs to no column name. -/
theorem selected_of_column {scope : Scope} {identifier : String} {column : ColumnRef}
    (h : scope.column identifier = .ok column) : scope.selected identifier = .ok column := by
  have hpath : MadeOf isPathChar identifier := by
    rcases ColumnRef.resolve_eq_ok.1 h with ⟨hword, -⟩ | ⟨hsingle, rfl, -⟩
    · exact hword.isPath
    · exact hsingle.isPath
  have hstar : '*' ∉ identifier.toList := fun hmem => absurd (hpath '*' hmem) (by decide)
  rw [selected_eq_column, h]
  · exact fun hreverse => hstar (List.mem_reverse.1 (by simp [hreverse]))
  · exact fun rest hreverse => hstar (List.mem_reverse.1 (by simp [hreverse]))

theorem isNamed_of_selected {scope : Scope} (howner : IsWord scope.owner) {identifier : String}
    {column : ColumnRef} (h : scope.selected identifier = .ok column) : column.IsNamed := by
  unfold selected at h
  split at h
  · obtain rfl := Except.ok.inj h
    exact howner
  · split at h
    · simp at h
    · rename_i aliasName hword
      split at h
      · obtain rfl := Except.ok.inj h
        obtain ⟨rfl, haliasName⟩ := Identifier.word_eq_ok hword
        exact haliasName
      · simp at h
  · exact (isSingle_of_column howner h).2

end Scope

end FilterSql
