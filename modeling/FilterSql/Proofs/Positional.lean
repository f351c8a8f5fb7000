import FilterSql.Proofs.Slots
import Mathlib

/-! Placeholders, bindings and positional form of a statement. The conditions of a statement bind
parameters in name spaces of their own, so merging their tables overwrites nothing; the text has one
slot for each of them, and filling the slots collects the arguments in the order of the text. -/

namespace FilterSql

variable {scope : Scope}

/-! ### Name spaces -/

/-- The name that all parameters of a join continue. -/
def joinName (ordinal : Nat) : String := "J_" ++ toString ordinal

theorem separate_joinName (count : Nat) : Separate joinName count :=
  fun _ _ _ _ _ hi hj => hi.index_unique hj

theorem below_joinName {ordinal index : Nat} {parameter : String}
    (h : Below (rootName (Assembler.joinSpace ordinal) index) parameter) :
    Below (joinName ordinal) parameter :=
  (below_append_underscore (joinName ordinal) (toString index)).trans h

/-- The main parameters start with a digit. -/
theorem not_below_joinName {ordinal index : Nat} {parameter : String}
    (hmain : Below (rootName "" index) parameter) : ¬ Below (joinName ordinal) parameter := by
  rintro ⟨rest, hparameter, -⟩
  obtain ⟨rest', rfl, -⟩ := hmain
  obtain ⟨c, cs, hcs⟩ := List.exists_cons_of_ne_nil (isWord_toString index).toList_ne_nil
  have hdigit : c.isDigit = true := by
    apply Nat.isDigit_of_mem_toDigits (b := 10) (n := index) (by decide) (by decide)
    rw [Nat.toString_eq_ofList_toDigits, String.toList_ofList] at hcs
    simp [hcs]
  rw [← String.toList_inj] at hparameter
  simp only [rootName, joinName, String.toList_append, hcs] at hparameter
  obtain rfl : c = 'J' := (List.cons.inj hparameter).1
  exact absurd hdigit (by decide)

namespace Join

variable {ordinal : Nat} {join : Join}

theorem IsChecked.parameters_below (h : join.IsChecked scope ordinal) :
    ∀ argument ∈ join.condition.arguments, Below (joinName ordinal) argument.1 := by
  intro argument hargument
  obtain ⟨index, hindex⟩ := h.condition.parameters_below hargument
  exact below_joinName hindex

end Join

namespace Select

variable {select : Select}

def joinArguments (select : Select) : List (String × Argument) :=
  select.joins.flatMap fun join => join.condition.arguments

theorem IsChecked.exists_join (h : select.IsChecked scope) {join : Join}
    (hjoin : join ∈ select.joins) : ∃ ordinal, join.IsChecked scope ordinal := by
  obtain ⟨ordinal, hordinal⟩ := exists_mem_zipIdx hjoin
  exact ⟨ordinal, h.joins _ hordinal⟩

theorem IsChecked.parameters_nodup (h : select.IsChecked scope) :
    ((select.filter.arguments ++ select.joinArguments).map Prod.fst).Nodup := by
  rw [List.map_append, List.nodup_append']
  refine ⟨h.filter.parameters_nodup, ?_, ?_⟩
  · apply nodup_parameters (separate_joinName _)
      fun join hjoin => (h.joins join hjoin).parameters_below
    intro join hjoin
    obtain ⟨ordinal, hchecked⟩ := h.exists_join hjoin
    exact hchecked.condition.parameters_nodup
  · intro parameter hmain hjoins
    obtain ⟨argument, hargument, rfl⟩ := List.mem_map.1 hmain
    obtain ⟨index, hindex⟩ := h.filter.parameters_below hargument
    obtain ⟨argument', hargument', heq⟩ := List.mem_map.1 hjoins
    obtain ⟨join, hjoin, hcondition⟩ := List.mem_flatMap.1 hargument'
    obtain ⟨ordinal, hchecked⟩ := h.exists_join hjoin
    exact not_below_joinName hindex (heq ▸ hchecked.parameters_below argument' hcondition)

/-- Merging the tables of the conditions overwrites nothing. -/
theorem IsChecked.entries_bindings (h : select.IsChecked scope) :
    select.bindings.entries = select.filter.arguments ++ select.joinArguments := by
  have hjoins : (select.joins.flatMap fun join => join.condition.bindings.entries) =
      select.joinArguments := by
    apply List.flatMap_congr
    intro join hjoin
    obtain ⟨ordinal, hchecked⟩ := h.exists_join hjoin
    exact hchecked.condition.entries_bindings
  rw [bindings, Bindings.entries_foldl_union] <;> rw [h.filter.entries_bindings, hjoins]
  exact h.parameters_nodup

end Select

/-! ### Slots of a statement -/

theorem madeOf_joinSpace (ordinal : Nat) : MadeOf isWordChar (Assembler.joinSpace ordinal) :=
  (MadeOf.append (by decide) (isWord_toString ordinal).2).append (by decide)

theorem scans_join {α : Type} {text : α → String} {slots : α → List (String × Bool)}
    {members : List α} (hscans : ∀ member ∈ members, Scans (text member) (slots member))
    (hstops : ∀ member ∈ members, Stops isWordChar (text member).toList) :
    Scans (String.join (members.map text)) (members.flatMap slots) ∧
      Stops isWordChar (String.join (members.map text)).toList := by
  induction members with
  | nil => exact ⟨scans_empty, by simp⟩
  | cons member members ih =>
      rw [List.forall_mem_cons] at hscans hstops
      obtain ⟨hrest, hrestStops⟩ := ih hscans.2 hstops.2
      rw [List.map_cons, String.join_cons, List.flatMap_cons, String.toList_append]
      exact ⟨hscans.1.append hrest hrestStops, hstops.1.append hrestStops⟩

theorem Restriction.arguments_of_isEmpty {restriction : Restriction}
    (h : restriction.isEmpty = true) : restriction.arguments = [] := by
  rw [isEmpty, List.isEmpty_iff] at h
  rw [arguments, h, List.flatMap_nil]

namespace Join

variable {ordinal : Nat} {join : Join}

theorem IsChecked.scans_conditionSql (h : join.IsChecked scope ordinal) :
    Scans join.conditionSql (join.condition.arguments.map Argument.slot) := by
  unfold conditionSql
  split
  · next hempty =>
      rw [Restriction.arguments_of_isEmpty hempty]
      exact scans_plain (by decide)
  · exact h.condition.scans h.aliasName.2 (madeOf_joinSpace ordinal)

/-- Everything in front of the condition. -/
theorem IsChecked.isPlain_front (h : join.IsChecked scope ordinal) :
    MadeOf isPlainChar
      (" " ++ join.kind.sql ++ " " ++ tableSql join.table join.aliasName ++ " ON ") :=
  (((MadeOf.append (by decide) join.kind.isPlain_sql).append (by decide)).append
    (isPlain_tableSql h.table h.aliasName)).append (by decide)

theorem IsChecked.scans (h : join.IsChecked scope ordinal) :
    Scans join.sql (join.condition.arguments.map Argument.slot) :=
  h.scans_conditionSql.plain_append h.isPlain_front

theorem stops_sql (join : Join) : Stops isWordChar join.sql.toList := by
  simp only [sql, String.toList_append, List.append_assoc]
  exact stops_append (by decide) _

end Join

namespace Select

variable {select : Select}

/-- The conditions of the joins stand in front of that of the main filter. -/
def textArguments (select : Select) : List (String × Argument) :=
  select.joinArguments ++ select.filter.arguments

theorem IsChecked.scans_whereSql (h : select.IsChecked scope) :
    Scans select.whereSql (select.filter.arguments.map Argument.slot) := by
  unfold whereSql
  split
  · next hempty =>
      rw [Restriction.arguments_of_isEmpty hempty]
      exact scans_empty
  · exact (h.filter.scans h.named.owner.2 (by decide)).plain_append (by decide)

theorem stops_whereSql (select : Select) : Stops isWordChar select.whereSql.toList := by
  unfold whereSql
  split
  · exact stops_nil _
  · exact stops_toList_append (by decide) _

theorem IsChecked.scans_bodySql (h : select.IsChecked scope) :
    Scans select.bodySql (select.textArguments.map Argument.slot) := by
  have htable : MadeOf isPlainChar (" FROM " ++ tableSql select.table select.aliasName) :=
    .append (by decide) (isPlain_tableSql h.table h.aliasName)
  have hjoins : Scans (String.join (select.joins.map Join.sql))
      (select.joins.flatMap fun join => join.condition.arguments.map Argument.slot) := by
    refine (scans_join ?_ fun join _ => join.stops_sql).1
    intro join hjoin
    obtain ⟨ordinal, hchecked⟩ := h.exists_join hjoin
    exact hchecked.scans
  rw [textArguments, List.map_append, joinArguments, List.map_flatMap]
  exact (hjoins.plain_append htable).append h.scans_whereSql select.stops_whereSql

theorem IsChecked.scans (h : select.IsChecked scope) {query : Query}
    (hquery : query ∈ select.queries) :
    Scans query.sql (select.textArguments.map Argument.slot) := by
  obtain ⟨before, after, hsql, hbefore, hafter⟩ := h.exists_frame hquery
  rw [hsql]
  exact hafter.scans (h.scans_bodySql.plain_append hbefore)

end Select

/-! ### Filling the slots -/

def Argument.values : Argument → List Scalar
  | .one value => [value]
  | .many values => values

/-- The bound values in order, with the lists spread out. -/
def Bindings.values (bindings : Bindings) : List Scalar :=
  bindings.entries.flatMap fun entry => entry.2.values

theorem Restriction.Placed.values_bindings {restriction : Restriction} {space : String}
    (h : restriction.Placed scope space) :
    restriction.bindings.values =
      restriction.arguments.flatMap fun argument => argument.2.values := by
  rw [Bindings.values, h.entries_bindings]

theorem Select.IsChecked.values_textArguments {select : Select} (h : select.IsChecked scope) :
    (select.textArguments.flatMap fun argument => argument.2.values) =
      (select.joins.flatMap fun join => join.condition.bindings.values) ++
        select.filter.bindings.values := by
  rw [textArguments, List.flatMap_append, joinArguments, List.flatMap_assoc,
    h.filter.values_bindings]
  congr 1
  apply List.flatMap_congr
  intro join hjoin
  obtain ⟨ordinal, hchecked⟩ := h.exists_join hjoin
  exact hchecked.condition.values_bindings.symm

theorem Segment.fill_eq_ok (dialect : Dialect) {bindings : Bindings} {segments : List Segment}
    {arguments : List (String × Argument)}
    (hslots : segments.filterMap slot? = arguments.map Argument.slot)
    (hbound : ∀ argument ∈ arguments, bindings.get? argument.1 = some argument.2) (position : Nat) :
    ∃ text, fill dialect bindings position segments =
      .ok (text, arguments.flatMap fun argument => argument.2.values) := by
  induction segments generalizing arguments position with
  | nil =>
      obtain rfl : arguments = [] := by simpa using hslots.symm
      exact ⟨[], rfl⟩
  | cons segment segments ih =>
      cases segment with
      | char c =>
          obtain ⟨text, htext⟩ := ih hslots hbound position
          exact ⟨c :: text, by rw [fill, htext]; rfl⟩
      | slot name spread =>
          cases arguments with
          | nil => simp [slot?] at hslots
          | cons argument arguments =>
              obtain ⟨argumentName, argument⟩ := argument
              rw [List.forall_mem_cons] at hbound
              obtain ⟨hslot, htail⟩ := List.cons.inj hslots
              obtain ⟨rfl, rfl⟩ := Prod.mk.inj hslot
              cases argument with
              | one value =>
                  obtain ⟨text, htext⟩ := ih htail hbound.2 (position + 1)
                  exact ⟨_, by simp only [fill, hbound.1, Argument.isMany, htext]; rfl⟩
              | many values =>
                  obtain ⟨text, htext⟩ := ih htail hbound.2 (position + values.length)
                  exact ⟨_, by simp only [fill, hbound.1, Argument.isMany, htext]; rfl⟩

theorem Query.positional_eq_ok {query : Query} {segments : List Segment}
    {arguments : List (String × Argument)}
    (hsegments : Segment.ofChars query.sql.toList = .ok segments)
    (hslots : segments.filterMap Segment.slot? = arguments.map Argument.slot)
    (hbound : ∀ argument ∈ arguments, query.bindings.get? argument.1 = some argument.2)
    (dialect : Dialect) :
    ∃ positional, query.positional dialect = .ok positional ∧
      positional.values = arguments.flatMap fun argument => argument.2.values := by
  obtain ⟨text, htext⟩ := Segment.fill_eq_ok dialect hslots hbound 1
  refine ⟨⟨String.ofList text, arguments.flatMap fun argument => argument.2.values⟩, ?_, rfl⟩
  rw [Query.positional, hsegments]
  exact bind_eq_ok.2 ⟨_, rfl, bind_eq_ok.2 ⟨_, htext, rfl⟩⟩

theorem Select.bindings_of_mem_queries {select : Select} {query : Query}
    (hquery : query ∈ select.queries) : query.bindings = select.bindings := by
  simp only [queries, List.mem_cons, List.not_mem_nil, or_false] at hquery
  rcases hquery with rfl | rfl | rfl <;> rfl

namespace Assembler

variable {assembler : Assembler} {request : Request} {select : Select}

/-- In every query of an assembled statement each colon starts a slot, the slots are those of the
bindings, each once, and the positional form lists the values of the join conditions, in the order
of the request, before those of the main filter. -/
theorem slots_of_assemble (h : assembler.assemble request = .ok select) {query : Query}
    (hquery : query ∈ select.queries) :
    ∃ main scope filter conditions segments,
      assembler.mainScope = .ok main ∧ declareJoins main request.joins = .ok scope ∧
      assembler.filterRestriction scope request.filter = .ok filter ∧
      (request.joins.zipIdx.mapM fun join => assembler.joinCondition scope join.2 join.1) =
        .ok conditions ∧
      Segment.ofChars query.sql.toList = .ok segments ∧
      segments.flatMap Segment.spelling = query.sql.toList ∧ Segment.char ':' ∉ segments ∧
      query.bindings.names.Nodup ∧
      (segments.filterMap Segment.slot?).Perm (query.bindings.entries.map Argument.slot) ∧
      ∀ dialect, ∃ positional, query.positional dialect = .ok positional ∧
        positional.values = (conditions.flatMap fun condition => condition.bindings.values) ++
          filter.bindings.values := by
  obtain ⟨main, scope, hstages⟩ := assemble_eq_ok.1 h
  have hchecked := hstages.isChecked
  obtain ⟨segments, hsegments, hslots⟩ :=
    hchecked.scans hquery [] [] (stops_nil _) (by rw [Segment.ofChars])
  rw [List.append_nil, List.append_nil] at hsegments
  obtain ⟨hspelling, hcolon⟩ := Segment.spelling_of_ofChars hsegments
  have hbindings := Select.bindings_of_mem_queries hquery
  have hentries := hchecked.entries_bindings
  have hnodup : query.bindings.names.Nodup := by
    rw [hbindings, Bindings.names, hentries]
    exact hchecked.parameters_nodup
  have hperm : select.textArguments.Perm query.bindings.entries := by
    rw [hbindings, hentries]
    exact List.perm_append_comm
  refine ⟨main, scope, select.filter, select.joins.map Join.condition, segments, hstages.opened,
    hstages.declared, hstages.filter, joinConditions_of_joinClauses hstages.joins, hsegments,
    hspelling, hcolon, hnodup, hslots ▸ hperm.map _, ?_⟩
  intro dialect
  have hbound : ∀ argument ∈ select.textArguments,
      query.bindings.get? argument.1 = some argument.2 :=
    fun argument hargument => Bindings.get?_eq_some_of_mem hnodup (hperm.mem_iff.1 hargument)
  obtain ⟨positional, hpositional, hvalues⟩ :=
    Query.positional_eq_ok hsegments hslots hbound dialect
  refine ⟨positional, hpositional, ?_⟩
  rw [hvalues, hchecked.values_textArguments, List.flatMap_map]

theorem slots_of_assemble_joined :
    let request : Request := { Request.empty with
      select := ["id"]
      filter := some (.object [("id", .scalar (.int 7))])
      joins := [⟨.left, "orders", none,
        some (.object [("total",
          .object [("$in", .list [.scalar (.int 1), .scalar (.int 2)])])])⟩] }
    ∃ select, (ofTable "users").assemble request = .ok select ∧
      select.query.sql = "SELECT users.id FROM users LEFT JOIN orders ON orders.total IN " ++
        "(:...J_0_0) WHERE users.id = :0" ∧
      select.query ∈ select.queries ∧ select.query.bindings.names.Nodup ∧
      ∃ positional, select.query.positional .mySql = .ok positional ∧
        positional.values = [.int 1, .int 2, .int 7] := by
  intro request
  obtain ⟨select, hselect, hsql⟩ : ∃ select, (ofTable "users").assemble request = .ok select ∧
      select.query.sql = "SELECT users.id FROM users LEFT JOIN orders ON orders.total IN " ++
        "(:...J_0_0) WHERE users.id = :0" := ⟨_, by cbv, by cbv⟩
  have hquery : select.query ∈ select.queries := by simp [Select.queries]
  obtain ⟨main, scope, filter, conditions, _, hmain, hscope, hfilter, hconditions, -, -, -, hnodup,
    -, hall⟩ := slots_of_assemble hselect hquery
  obtain ⟨positional, hpositional, hvalues⟩ := hall .mySql
  -- What the stages gave is known, as each of them has one result.
  have hopened : (ofTable "users").mainScope = .ok (Scope.ofMain "users") := by cbv
  obtain rfl := Except.ok.inj (hopened.symm.trans hmain)
  have hdeclared : declareJoins (Scope.ofMain "users") request.joins =
      .ok ⟨"users", ["orders"], none⟩ := by cbv
  obtain rfl := Except.ok.inj (hdeclared.symm.trans hscope)
  have hrestriction : (ofTable "users").filterRestriction ⟨"users", ["orders"], none⟩
      request.filter = .ok ⟨.and, [.leaf (.compare (.path "users" ["id"]) .eq "0" (.int 7))]⟩ := by
    cbv
  obtain rfl := Except.ok.inj (hrestriction.symm.trans hfilter)
  have hjoined : (request.joins.zipIdx.mapM fun join =>
      (ofTable "users").joinCondition ⟨"users", ["orders"], none⟩ join.2 join.1) =
        .ok [⟨.and, [.leaf (.member (.path "orders" ["total"]) .isIn "J_0_0"
          [.int 1, .int 2])]⟩] := by cbv
  obtain rfl := Except.ok.inj (hjoined.symm.trans hconditions)
  exact ⟨select, hselect, hsql, hquery, hnodup, positional, hpositional, hvalues⟩

end Assembler

end FilterSql
