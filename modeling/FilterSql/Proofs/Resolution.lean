import FilterSql.Proofs.Growth
import FilterSql.Proofs.Qualification

/-! Reading the text of a column again. In a scope that has come about from a word by declaring and
activating, every alias is a word and undotted names belong to an alias that may be written. So the
text of a column is a name of that column, no two columns have one text, and comparing columns is
comparing texts. -/

namespace FilterSql

/-! ### Texts of columns -/

namespace ColumnRef

theorem sql_all (owner : String) : (all owner).sql = owner ++ ".*" := by
  simp only [sql, ColumnRef.owner, segments, String.intercalate_singleton, String.append_assoc]
  rfl

variable {column other : ColumnRef}

theorem IsNamed.sql_injective (h : column.IsNamed) (hother : other.IsNamed)
    (hsql : column.sql = other.sql) : column = other := by
  -- a star is no part of a path
  have hstar : ∀ {owner : String} {column : ColumnRef}, column.IsSingle →
      column.sql ≠ (all owner).sql := by
    intro owner column hsingle hsql
    have hmem : '*' ∈ column.sql.toList := by simp [hsql, sql_all]
    exact absurd (hsingle.isPath '*' hmem) (by decide)
  cases column with
  | path owner segments =>
      cases other with
      | path owner' segments' => exact IsSingle.sql_injective ⟨rfl, h⟩ ⟨rfl, hother⟩ hsql
      | all owner' => exact absurd hsql (hstar ⟨rfl, h⟩)
  | all owner =>
      cases other with
      | path owner' segments' => exact absurd hsql.symm (hstar ⟨rfl, hother⟩)
      | all owner' =>
          rw [sql_all, sql_all, ← String.toList_inj, String.toList_append,
            String.toList_append] at hsql
          rw [String.toList_inj.1 (List.append_cancel_right hsql)]

theorem IsNamed.sql_eq_iff (h : column.IsNamed) (hother : other.IsNamed) :
    column.sql = other.sql ↔ column = other :=
  ⟨h.sql_injective hother, congrArg sql⟩

theorem IsNamed.isWord_owner (h : column.IsNamed) : IsWord column.owner := by
  cases column with
  | path owner segments => exact h.1
  | all owner => exact h

variable {columns : List ColumnRef}

theorem IsNamed.mem_iff (h : column.IsNamed) (hcolumns : ∀ other ∈ columns, other.IsNamed) :
    column ∈ columns ↔ column.sql ∈ columns.map sql := by
  rw [List.mem_map]
  constructor
  · exact fun hmem => ⟨column, hmem, rfl⟩
  · rintro ⟨other, hother, hsql⟩
    rwa [← (hcolumns other hother).sql_injective h hsql]

theorem IsNamed.any_includes_iff (h : column.IsNamed)
    (hcolumns : ∀ other ∈ columns, other.IsNamed) :
    columns.any (·.includes column) = true ↔
      column.sql ∈ columns.map sql ∨ column.owner ++ ".*" ∈ columns.map sql := by
  have hall : (all column.owner).IsNamed := h.isWord_owner
  rw [← sql_all, ← h.mem_iff hcolumns, ← hall.mem_iff hcolumns, List.any_eq_true]
  simp [includes, and_or_left, exists_or]

end ColumnRef

/-! ### Scopes that come about -/

namespace Scope

variable {scope : Scope}

/-- The scopes that are opened for a word, in which aliases are declared, and of which any known
alias may be activated. -/
inductive Arises : Scope → Prop where
  | ofMain {main : String} (hmain : IsWord main) : Arises (ofMain main)
  | declaring {scope : Scope} (h : Arises scope) (aliasName : String) :
      Arises (scope.declaring aliasName)
  | activate {scope : Scope} {aliasName : String} (h : Arises scope)
      (hknown : scope.knows aliasName = true) : Arises (scope.activate aliasName)

theorem Arises.declaringAll (h : scope.Arises) (aliases : List String) :
    (scope.declaringAll aliases).Arises := by
  induction aliases generalizing scope with
  | nil => exact h
  | cons aliasName aliases ih => exact ih (h.declaring aliasName)

theorem IsNamed.isWord_of_knows (h : scope.IsNamed) {aliasName : String}
    (hknown : scope.knows aliasName = true) : IsWord aliasName := by
  rcases knows_eq_true.1 hknown with rfl | hmem
  · exact h.main
  · exact h.joins aliasName hmem

theorem IsNamed.declaring (h : scope.IsNamed) (aliasName : String) :
    (scope.declaring aliasName).IsNamed := by
  rcases declaring_eq scope aliasName with heq | ⟨hword, -, heq⟩
  · rwa [heq]
  · rw [heq]
    exact h.extend hword

theorem IsNamed.activate (h : scope.IsNamed) {aliasName : String}
    (hknown : scope.knows aliasName = true) : (scope.activate aliasName).IsNamed := by
  refine ⟨h.main, h.joins, fun other hother => ?_⟩
  obtain rfl := Option.some.inj hother
  exact h.isWord_of_knows hknown

theorem Arises.isNamed (h : scope.Arises) : scope.IsNamed := by
  induction h with
  | ofMain hmain => exact ⟨hmain, by simp [Scope.ofMain], by simp [Scope.ofMain]⟩
  | declaring h aliasName ih => exact ih.declaring aliasName
  | activate h hknown ih => exact ih.activate hknown

theorem Arises.knows_owner (h : scope.Arises) : scope.knows scope.owner = true := by
  induction h with
  | ofMain hmain => exact knows_ofMain.2 rfl
  | @declaring scope h aliasName ih =>
      have hgrows := grows_declaring scope aliasName
      rw [hgrows.owner]
      exact hgrows.knows _ ih
  | activate h hknown ih => exact hknown

/-! ### Names that are texts of columns -/

theorem column_sql (howner : IsWord scope.owner) {name : String} {column : ColumnRef}
    (h : scope.column name = .ok column) : scope.column column.sql = .ok column :=
  ColumnRef.resolve_eq_ok.2 (.inr ⟨isSingle_of_column howner h, rfl, owner_of_column h⟩)

theorem selected_sql (howner : IsWord scope.owner) (hknown : scope.knows scope.owner = true)
    {name : String} {column : ColumnRef} (h : scope.selected name = .ok column) :
    scope.selected column.sql = .ok column := by
  have hnamed := isNamed_of_selected howner h
  have hcolumn := owner_of_selected h
  cases column with
  | path owner segments =>
      exact selected_of_column (ColumnRef.resolve_eq_ok.2 (.inr ⟨⟨rfl, hnamed⟩, rfl, hcolumn⟩))
  | all owner =>
      rw [ColumnRef.sql_all]
      refine selected_all hnamed (hcolumn.elim (fun heq => ?_) id)
      rwa [← heq] at hknown

/-- The scope gives the column for some name, or for some entry of a select list. -/
def Produces (scope : Scope) (column : ColumnRef) : Prop :=
  ∃ name, scope.column name = .ok column ∨ scope.selected name = .ok column

theorem Produces.isNamed {column : ColumnRef} (howner : IsWord scope.owner)
    (h : scope.Produces column) : column.IsNamed := by
  obtain ⟨name, hcolumn | hselected⟩ := h
  · exact (isSingle_of_column howner hcolumn).2
  · exact isNamed_of_selected howner hselected

/-- The text of a column is a name of the column, also where it stands for all columns of a table.
Columns are equal exactly when their texts are, so it makes no difference whether the columns or
their texts are compared when a column has to be selected or grouped. -/
theorem reads_column_texts (h : scope.Arises) :
    (∀ name column, scope.column name = .ok column → scope.column column.sql = .ok column) ∧
    (∀ name column, scope.selected name = .ok column →
      scope.selected column.sql = .ok column) ∧
    (∀ column other, scope.Produces column → scope.Produces other →
      (column.sql = other.sql ↔ column = other)) ∧
    ∀ (columns : List ColumnRef) (column : ColumnRef),
      (∀ other ∈ columns, scope.Produces other) → scope.Produces column →
      (columns.any (·.includes column) = true ↔
        column.sql ∈ columns.map ColumnRef.sql ∨
          column.owner ++ ".*" ∈ columns.map ColumnRef.sql) ∧
      (columns.contains column = true ↔ column.sql ∈ columns.map ColumnRef.sql) := by
  have howner := h.isNamed.owner
  refine ⟨fun _ _ => column_sql howner, fun _ _ => selected_sql howner h.knows_owner, ?_, ?_⟩
  · intro column other hcolumn hother
    exact (hcolumn.isNamed howner).sql_eq_iff (hother.isNamed howner)
  · intro columns column hcolumns hcolumn
    have hnamed := hcolumn.isNamed howner
    have hall : ∀ other ∈ columns, other.IsNamed := fun other hother =>
      (hcolumns other hother).isNamed howner
    exact ⟨hnamed.any_includes_iff hall, List.contains_iff_mem.trans (hnamed.mem_iff hall)⟩

/-- A star, a dotted path and an undotted name, read under an active join. -/
theorem reads_column_texts_activated :
    let scope := ((ofMain "users").declaringAll ["orders", "o.x"]).activate "orders"
    let star := ColumnRef.all "orders"
    let dotted := ColumnRef.path "users" ["meta", "id"]
    let plain := ColumnRef.path "orders" ["id"]
    scope.Arises ∧
      scope.column "id" = .ok plain ∧ plain.sql = "orders.id" ∧
      scope.column plain.sql = .ok plain ∧
      scope.selected "*" = .ok star ∧ star.sql = "orders.*" ∧ scope.selected star.sql = .ok star ∧
      scope.Produces star ∧ scope.Produces dotted ∧ (star.sql = dotted.sql ↔ star = dotted) ∧
      (([star, dotted] : List ColumnRef).any (·.includes plain) = true ↔
        plain.sql ∈ [star.sql, dotted.sql] ∨ "orders.*" ∈ [star.sql, dotted.sql]) := by
  intro scope star dotted plain
  have hopened : (ofMain "users").Arises := .ofMain (by decide)
  have harises : scope.Arises := (hopened.declaringAll ["orders", "o.x"]).activate (by cbv)
  have hplain : scope.column "id" = .ok plain := by cbv
  have hstar : scope.selected "*" = .ok star := by cbv
  have hdotted : scope.column "users.meta.id" = .ok dotted := by cbv
  have hproduces : ∀ column ∈ [star, dotted], scope.Produces column := by
    rw [List.forall_mem_cons, List.forall_mem_singleton]
    exact ⟨⟨"*", .inr hstar⟩, ⟨"users.meta.id", .inl hdotted⟩⟩
  obtain ⟨hcolumn, hselected, hequal, hcovered⟩ := reads_column_texts harises
  have hboth := List.forall_mem_cons.1 hproduces
  have hdottedProduced := hboth.2 dotted List.mem_cons_self
  exact ⟨harises, hplain, by decide, hcolumn "id" plain hplain, hstar, by decide,
    hselected "*" star hstar, hboth.1, hdottedProduced, hequal star dotted hboth.1 hdottedProduced,
    (hcovered [star, dotted] plain hproduces ⟨"id", .inl hplain⟩).1⟩

end Scope

end FilterSql
