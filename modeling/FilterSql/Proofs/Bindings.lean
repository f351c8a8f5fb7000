import FilterSql.Bindings
import Mathlib.Data.List.Nodup

/-! Binding a name. A name that is bound again keeps its place and takes the new argument. Nothing is
overwritten as long as no name occurs twice: the table is then the list of what was bound, in order,
and every name still has its own argument. -/

namespace FilterSql

namespace Assoc

variable {κ α : Type} [DecidableEq κ]

theorem insert_of_notMem {key : κ} {value : α} {entries : List (κ × α)}
    (h : key ∉ entries.map Prod.fst) : insert key value entries = entries ++ [(key, value)] := by
  induction entries with
  | nil => rfl
  | cons entry entries ih =>
      simp only [List.map_cons, List.mem_cons, not_or] at h
      rw [insert, if_neg (Ne.symm h.1), ih h.2, List.cons_append]

theorem lookup_eq_some_of_mem {key : κ} {value : α} {entries : List (κ × α)}
    (hnodup : (entries.map Prod.fst).Nodup) (hmem : (key, value) ∈ entries) :
    entries.lookup key = some value := by
  induction entries with
  | nil => simp at hmem
  | cons entry entries ih =>
      rw [List.map_cons, List.nodup_cons] at hnodup
      rcases List.mem_cons.1 hmem with rfl | hmem
      · rw [List.lookup_cons_self]
      · have hne : key ≠ entry.1 := by
          rintro rfl
          exact hnodup.1 (List.mem_map.2 ⟨_, hmem, rfl⟩)
        rw [List.lookup_cons, beq_false_of_ne hne]
        exact ih hnodup.2 hmem

theorem lookup_eq_some_iff_mem {key : κ} {value : α} {entries : List (κ × α)}
    (hnodup : (entries.map Prod.fst).Nodup) :
    entries.lookup key = some value ↔ (key, value) ∈ entries := by
  constructor
  · intro h
    obtain ⟨before, after, rfl, -⟩ := List.lookup_eq_some_iff.1 h
    simp
  · exact lookup_eq_some_of_mem hnodup

theorem map_fst_insert {key : κ} {value : α} (entries : List (κ × α)) :
    (insert key value entries).map Prod.fst =
      if key ∈ entries.map Prod.fst then entries.map Prod.fst
      else entries.map Prod.fst ++ [key] := by
  induction entries with
  | nil => rfl
  | cons entry entries ih =>
      rw [insert]
      by_cases hentry : entry.1 = key
      · simp [hentry]
      · rw [if_neg hentry, List.map_cons, List.map_cons, ih]
        simp only [List.mem_cons, Ne.symm hentry, false_or]
        split <;> rfl

theorem lookup_cons_eq_ite {entry : κ × α} (entries : List (κ × α)) (other : κ) :
    (entry :: entries).lookup other =
      if other = entry.1 then some entry.2 else entries.lookup other := by
  by_cases hother : other = entry.1
  · rw [if_pos hother, hother, List.lookup_cons, beq_self_eq_true]
  · rw [if_neg hother, List.lookup_cons, beq_false_of_ne hother]

theorem lookup_insert {key : κ} {value : α} (entries : List (κ × α)) (other : κ) :
    (insert key value entries).lookup other =
      if other = key then some value else entries.lookup other := by
  induction entries with
  | nil => rw [insert, lookup_cons_eq_ite]
  | cons entry entries ih =>
      rw [insert]
      by_cases hentry : entry.1 = key
      · rw [if_pos hentry, lookup_cons_eq_ite, lookup_cons_eq_ite, hentry]
        by_cases hother : other = key
        · rw [if_pos hother, if_pos hother]
        · rw [if_neg hother, if_neg hother, if_neg hother]
      · rw [if_neg hentry, lookup_cons_eq_ite, lookup_cons_eq_ite, ih]
        by_cases hother : other = entry.1
        · have hne : other ≠ key := fun heq => hentry (hother.symm.trans heq)
          rw [if_pos hother, if_neg hne, if_pos hother]
        · rw [if_neg hother, if_neg hother]

theorem lookup_reverse {entries : List (κ × α)} (h : (entries.map Prod.fst).Nodup) (key : κ) :
    entries.reverse.lookup key = entries.lookup key := by
  have hreverse : (entries.reverse.map Prod.fst).Nodup := by
    rwa [List.map_reverse, List.nodup_reverse]
  apply Option.ext
  intro value
  rw [lookup_eq_some_iff_mem hreverse, lookup_eq_some_iff_mem h, List.mem_reverse]

/-- The keys and what is found under them make up the list. -/
theorem map_some_eq {entries : List (κ × α)} (h : (entries.map Prod.fst).Nodup) :
    entries.map some =
      (entries.map Prod.fst).map fun key => (entries.lookup key).map (Prod.mk key) := by
  rw [List.map_map]
  apply List.map_congr_left
  intro entry hentry
  show some entry = (entries.lookup entry.1).map (Prod.mk entry.1)
  rw [lookup_eq_some_of_mem h hentry]
  rfl

end Assoc

namespace Bindings

theorem entries_foldl_insert {bindings : Bindings} {pairs : List (String × Argument)}
    (h : ((bindings.entries ++ pairs).map Prod.fst).Nodup) :
    (pairs.foldl (fun bindings pair => bindings.insert pair.1 pair.2) bindings).entries =
      bindings.entries ++ pairs := by
  induction pairs generalizing bindings with
  | nil => simp
  | cons pair pairs ih =>
      have hfresh : pair.1 ∉ bindings.entries.map Prod.fst := by
        intro hmem
        rw [List.map_append, List.nodup_append] at h
        exact h.2.2 _ hmem _ (by simp) rfl
      have hinsert : (bindings.insert pair.1 pair.2).entries = bindings.entries ++ [pair] :=
        Assoc.insert_of_notMem hfresh
      rw [List.foldl_cons, ih] <;> simp_all

theorem entries_ofList {pairs : List (String × Argument)} (h : (pairs.map Prod.fst).Nodup) :
    (ofList pairs).entries = pairs :=
  entries_foldl_insert (by simpa [empty] using h)

theorem entries_union {bindings other : Bindings}
    (h : ((bindings.entries ++ other.entries).map Prod.fst).Nodup) :
    (bindings.union other).entries = bindings.entries ++ other.entries :=
  entries_foldl_insert h

theorem entries_foldl_union {α : Type} {bindings : Bindings} {table : α → Bindings}
    {members : List α}
    (h : ((bindings.entries ++ members.flatMap fun member => (table member).entries).map
      Prod.fst).Nodup) :
    (members.foldl (fun result member => result.union (table member)) bindings).entries =
      bindings.entries ++ members.flatMap fun member => (table member).entries := by
  induction members generalizing bindings with
  | nil => simp
  | cons member members ih =>
      rw [List.flatMap_cons, ← List.append_assoc] at h ⊢
      have hunion : (bindings.union (table member)).entries =
          bindings.entries ++ (table member).entries := by
        rw [List.map_append] at h
        exact entries_union (List.Nodup.of_append_left h)
      rw [List.foldl_cons, ih, hunion]
      rwa [hunion]

theorem get?_eq_some_of_mem {bindings : Bindings} {name : String} {argument : Argument}
    (hnodup : bindings.names.Nodup) (hmem : (name, argument) ∈ bindings.entries) :
    bindings.get? name = some argument :=
  Assoc.lookup_eq_some_of_mem hnodup hmem

end Bindings

end FilterSql
