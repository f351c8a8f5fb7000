import FilterSql.Proofs.Bindings
import Mathlib.Logic.Function.Basic

/-! Tables of parameters under any run of steps. A table is told by what has been bound in it: each
name once, in the order of the first bindings, with the argument of its last one. A table that is
merged into another one passes on all that has been bound in it, so merging tables is putting what
was bound in them one after the other, and the laws of merging are those of lists. -/

namespace FilterSql

/-! ### First occurrences -/

section

variable {α : Type} [DecidableEq α]

theorem eraseDups_filter (p : α → Bool) (l : List α) :
    (l.filter p).eraseDups = l.eraseDups.filter p := by
  match l with
  | [] => rfl
  | a :: l =>
      have hlength : (l.filter fun b => !b == a).length ≤ l.length := List.length_filter_le _ _
      rw [List.eraseDups_cons, List.filter_cons, List.filter_cons, ← eraseDups_filter p]
      by_cases ha : p a = true
      · rw [if_pos ha, if_pos ha, List.eraseDups_cons, List.filter_filter, List.filter_filter]
        simp only [Bool.and_comm]
      · rw [if_neg ha, if_neg ha, List.filter_filter]
        congr 1
        apply List.filter_congr
        intro b _
        by_cases hb : b = a
        · simp [hb, ha]
        · simp [hb]
termination_by l.length

theorem nodup_eraseDups (l : List α) : l.eraseDups.Nodup := by
  match l with
  | [] => exact List.nodup_nil
  | a :: l =>
      have hlength : (l.filter fun b => !b == a).length ≤ l.length := List.length_filter_le _ _
      rw [List.eraseDups_cons, List.nodup_cons]
      refine ⟨fun hmem => ?_, nodup_eraseDups _⟩
      simp [List.mem_eraseDups] at hmem
termination_by l.length

theorem eraseDups_of_nodup {l : List α} (h : l.Nodup) : l.eraseDups = l := by
  induction l with
  | nil => rfl
  | cons a l ih =>
      rw [List.nodup_cons] at h
      have hfilter : (l.filter fun b => !b == a) = l := by
        rw [List.filter_eq_self]
        intro b hb
        have hne : b ≠ a := fun heq => h.1 (heq ▸ hb)
        simpa using hne
      rw [List.eraseDups_cons, hfilter, ih h.2]

theorem eraseDups_append_congr (front : List α) {l l' : List α} (h : l.eraseDups = l'.eraseDups) :
    (front ++ l).eraseDups = (front ++ l').eraseDups := by
  rw [List.eraseDups_append, List.eraseDups_append, List.removeAll, List.removeAll,
    eraseDups_filter, eraseDups_filter, h]

theorem eraseDups_concat (front : List α) (a : α) :
    (front ++ [a]).eraseDups =
      if a ∈ front then front.eraseDups else front.eraseDups ++ [a] := by
  rw [List.eraseDups_append, List.removeAll]
  by_cases ha : a ∈ front
  · simp [ha]
  · simp [ha, List.eraseDups_cons]

end

/-! ### One binding -/

namespace Bindings

variable {bindings bindings' : Bindings} {log log' : List (String × Argument)}

/-- The table holds what was bound in this order: each name at the place of its first binding and
with the argument of its last one. -/
structure Records (bindings : Bindings) (log : List (String × Argument)) : Prop where
  names : bindings.names = (log.map Prod.fst).eraseDups
  get? : ∀ name, bindings.get? name = log.reverse.lookup name

theorem records_empty : empty.Records [] := ⟨rfl, fun _ => rfl⟩

theorem Records.nodup (h : bindings.Records log) : bindings.names.Nodup :=
  h.names ▸ nodup_eraseDups _

theorem records_entries (h : bindings.names.Nodup) : bindings.Records bindings.entries :=
  ⟨(eraseDups_of_nodup h).symm, fun name => (Assoc.lookup_reverse h name).symm⟩

theorem Records.insert (h : bindings.Records log) (name : String) (argument : Argument) :
    (bindings.insert name argument).Records (log ++ [(name, argument)]) := by
  refine ⟨?_, fun other => ?_⟩
  · have hmem : name ∈ bindings.names ↔ name ∈ log.map Prod.fst := by
      rw [h.names, List.mem_eraseDups]
    rw [List.map_append, List.map_singleton, eraseDups_concat, ← h.names]
    simp only [← hmem]
    exact Assoc.map_fst_insert bindings.entries
  · rw [List.reverse_append, List.reverse_singleton, List.singleton_append,
      Assoc.lookup_cons_eq_ite, ← h.get?]
    exact Assoc.lookup_insert bindings.entries other

/-! ### Merging -/

theorem Records.insertAll (h : bindings.Records log) (pairs : List (String × Argument)) :
    (pairs.foldl (fun result pair => result.insert pair.1 pair.2) bindings).Records
      (log ++ pairs) := by
  induction pairs generalizing bindings log with
  | nil => rwa [List.foldl_nil, List.append_nil]
  | cons pair pairs ih =>
      have hstep := ih (h.insert pair.1 pair.2)
      rwa [List.append_assoc, List.singleton_append] at hstep

/-- Only what a table holds counts, however it came to hold it. -/
theorem Records.congr_append {merged : Bindings} {front : List (String × Argument)}
    (h : bindings.Records log) (h' : bindings.Records log')
    (hmerged : merged.Records (front ++ log)) : merged.Records (front ++ log') := by
  refine ⟨?_, fun name => ?_⟩
  · have hnames : (log.map Prod.fst).eraseDups = (log'.map Prod.fst).eraseDups :=
      h.names.symm.trans h'.names
    rw [hmerged.names, List.map_append, List.map_append, eraseDups_append_congr _ hnames]
  · rw [hmerged.get?, List.reverse_append, List.reverse_append, List.lookup_append,
      List.lookup_append, ← h.get?, ← h'.get?]

theorem Records.union (h : bindings.Records log) (h' : bindings'.Records log') :
    (bindings.union bindings').Records (log ++ log') :=
  (records_entries h'.nodup).congr_append h' (h.insertAll bindings'.entries)

/-- What was bound determines the table. -/
theorem Records.unique (h : bindings.Records log) (h' : bindings'.Records log) :
    bindings = bindings' := by
  have hentries : bindings.entries.map some = bindings'.entries.map some := by
    have hnames : bindings.entries.map Prod.fst = bindings'.entries.map Prod.fst :=
      h.names.trans h'.names.symm
    have hget : ∀ name, bindings.entries.lookup name = bindings'.entries.lookup name :=
      fun name => (h.get? name).trans (h'.get? name).symm
    rw [Assoc.map_some_eq h.nodup, Assoc.map_some_eq h'.nodup, hnames]
    simp only [hget]
  have heq := List.map_injective_iff.2 (fun _ _ => Option.some.inj) hentries
  exact congrArg Bindings.mk heq

theorem Records.double (h : bindings.Records log) : bindings.Records (log ++ log) := by
  refine ⟨?_, fun name => ?_⟩
  · have hnone : (log.map Prod.fst).removeAll (log.map Prod.fst) = [] := by
      simp [List.removeAll]
    rw [h.names, List.map_append, List.eraseDups_append, hnone, List.eraseDups_nil, List.append_nil]
  · rw [h.get?, List.reverse_append, List.lookup_append, Option.or_self]

variable {third : Bindings}

theorem union_assoc (h : bindings.names.Nodup) (h' : bindings'.names.Nodup)
    (h'' : third.names.Nodup) :
    (bindings.union bindings').union third = bindings.union (bindings'.union third) := by
  have hleft := ((records_entries h).union (records_entries h')).union (records_entries h'')
  have hright := (records_entries h).union ((records_entries h').union (records_entries h''))
  rw [List.append_assoc] at hleft
  exact hleft.unique hright

theorem union_empty (bindings : Bindings) : bindings.union empty = bindings := rfl

theorem empty_union (h : bindings.names.Nodup) : empty.union bindings = bindings :=
  (records_empty.union (records_entries h)).unique (records_entries h)

theorem union_self (h : bindings.names.Nodup) : bindings.union bindings = bindings :=
  ((records_entries h).union (records_entries h)).unique (records_entries h).double

theorem entries_union_of_disjoint (h : bindings.names.Nodup) (h' : bindings'.names.Nodup)
    (hdisjoint : bindings.names.Disjoint bindings'.names) :
    (bindings.union bindings').entries = bindings.entries ++ bindings'.entries := by
  apply entries_union
  rw [List.map_append]
  exact h.append h' hdisjoint

/-! ### Runs -/

section

variable {ι : Type} [DecidableEq ι]

/-- What is done to a set of tables: a name is bound in one of them, to one value or to a list, or
one of them is bound what another one holds. -/
inductive Step (ι : Type) where
  | bind (table : ι) (name : String) (argument : Argument)
  | merge (table other : ι)

def Step.apply (tables : ι → Bindings) : Step ι → ι → Bindings
  | .bind table name argument =>
    Function.update tables table ((tables table).insert name argument)
  | .merge table other => Function.update tables table ((tables table).union (tables other))

/-- The tables after the steps. They are empty at first. -/
def run (steps : List (Step ι)) : ι → Bindings := steps.foldl Step.apply fun _ => empty

/-- What has been bound in each table after one more step. Merging binds all that has been bound in
the other table. -/
def Step.extend (logs : ι → List (String × Argument)) : Step ι → ι → List (String × Argument)
  | .bind table name argument => Function.update logs table (logs table ++ [(name, argument)])
  | .merge table other => Function.update logs table (logs table ++ logs other)

def history (steps : List (Step ι)) : ι → List (String × Argument) :=
  steps.foldl Step.extend fun _ => []

theorem records_update {tables : ι → Bindings} {logs : ι → List (String × Argument)}
    (h : ∀ table, (tables table).Records (logs table)) {changed : ι}
    (hchanged : bindings.Records log) (table : ι) :
    (Function.update tables changed bindings table).Records
      (Function.update logs changed log table) := by
  by_cases htable : table = changed
  · rw [htable, Function.update_self, Function.update_self]
    exact hchanged
  · rw [Function.update_of_ne htable, Function.update_of_ne htable]
    exact h table

theorem records_step {tables : ι → Bindings} {logs : ι → List (String × Argument)}
    (h : ∀ table, (tables table).Records (logs table)) (step : Step ι) (table : ι) :
    (step.apply tables table).Records (step.extend logs table) := by
  cases step with
  | bind changed name argument => exact records_update h ((h changed).insert name argument) table
  | merge changed other => exact records_update h ((h changed).union (h other)) table

/-- Every table of a run is told by what has been bound in it. -/
theorem records_run (steps : List (Step ι)) (table : ι) :
    (run steps table).Records (history steps table) := by
  have hfold : ∀ (tables : ι → Bindings) (logs : ι → List (String × Argument)),
      (∀ table, (tables table).Records (logs table)) →
        ∀ table, (steps.foldl Step.apply tables table).Records
          (steps.foldl Step.extend logs table) := by
    induction steps with
    | nil => exact fun _ _ h => h
    | cons step steps ih => exact fun tables logs h => ih _ _ (records_step h step)
  exact hfold _ _ (fun _ => records_empty) table

/-- In every run each table has its names once, in the order of their first bindings, and finds under
a name the argument of its last one. On tables with distinct names merging is associative, the empty
table is neutral on both sides, a table merged into itself stays as it is, and tables without a
common name are put one behind the other. -/
theorem tables_record_history (steps : List (Step ι)) :
    (∀ table,
      (run steps table).names.Nodup ∧
      (run steps table).names = ((history steps table).map Prod.fst).eraseDups ∧
      ∀ name, (run steps table).get? name = (history steps table).reverse.lookup name) ∧
    ∀ first second third : Bindings,
      first.names.Nodup → second.names.Nodup → third.names.Nodup →
        (first.union second).union third = first.union (second.union third) ∧
        empty.union first = first ∧ first.union empty = first ∧ first.union first = first ∧
        (first.names.Disjoint second.names →
          (first.union second).entries = first.entries ++ second.entries) := by
  refine ⟨fun table => ?_, fun first second third hfirst hsecond hthird => ?_⟩
  · have hrecords := records_run steps table
    exact ⟨hrecords.nodup, hrecords.names, hrecords.get?⟩
  · exact ⟨union_assoc hfirst hsecond hthird, empty_union hfirst, union_empty first,
      union_self hfirst, entries_union_of_disjoint hfirst hsecond⟩

end

/-- Three tables that share names. The first is merged with the second, then with itself, and bound
once more before the second is merged into it again; the fourth shares no name with it. -/
theorem tables_record_history_overlapping :
    let steps : List (Step (Fin 4)) :=
      [.bind 0 "x" (.one (.int 1)), .bind 0 "y" (.one (.int 2)), .bind 1 "z" (.one (.int 3)),
        .bind 1 "y" (.many [.int 4, .int 5]), .bind 2 "x" (.one .null), .bind 2 "z" (.many []),
        .merge 0 1, .merge 0 0, .bind 0 "z" (.one (.int 6)), .merge 0 1, .bind 3 "w" (.one .null)]
    let tables := run steps
    (tables 0).names.Nodup ∧ (tables 0).names = ["x", "y", "z"] ∧
      (tables 0).get? "y" = some (.many [.int 4, .int 5]) ∧
      (tables 0).get? "z" = some (.one (.int 3)) ∧
      ((tables 0).union (tables 1)).union (tables 2) =
        (tables 0).union ((tables 1).union (tables 2)) ∧
      (tables 1).union (tables 1) = tables 1 ∧
      (tables 0).names.Disjoint (tables 3).names ∧
      ((tables 0).union (tables 3)).entries = (tables 0).entries ++ (tables 3).entries := by
  intro steps tables
  obtain ⟨htables, hlaws⟩ := tables_record_history steps
  have hnodup : ∀ table, (tables table).names.Nodup := fun table => (htables table).1
  have hassoc := (hlaws (tables 0) (tables 1) (tables 2) (hnodup 0) (hnodup 1) (hnodup 2)).1
  obtain ⟨-, -, -, hself, -⟩ :=
    hlaws (tables 1) (tables 0) (tables 0) (hnodup 1) (hnodup 0) (hnodup 0)
  obtain ⟨-, -, -, -, hdisjoint⟩ :=
    hlaws (tables 0) (tables 3) (tables 3) (hnodup 0) (hnodup 3) (hnodup 3)
  have hfirst : (tables 0).names = ["x", "y", "z"] := (htables 0).2.1.trans (by decide)
  have hfourth : (tables 3).names = ["w"] := (htables 3).2.1.trans (by decide)
  have hapart : (tables 0).names.Disjoint (tables 3).names := by
    rw [hfirst, hfourth]
    simp
  exact ⟨hnodup 0, hfirst, ((htables 0).2.2 "y").trans (by decide),
    ((htables 0).2.2 "z").trans (by decide), hassoc, hself, hapart, hdisjoint hapart⟩

end Bindings

end FilterSql
