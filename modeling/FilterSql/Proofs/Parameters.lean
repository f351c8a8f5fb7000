import FilterSql.Proofs.Bindings
import FilterSql.Proofs.Placement

/-! Names of generated parameters. The name of a place is followed in the names below it by an
underscore or by nothing, while the digits of a position never contain one; so places that differ
in a position share no name, and one compilation binds every name once. -/

namespace FilterSql

/-- The parameter has the name of the place, or that name continued after an underscore. -/
def Below (place parameter : String) : Prop :=
  ∃ rest : String, parameter = place ++ rest ∧ (rest = "" ∨ ∃ more, rest = "_" ++ more)

theorem Below.refl (place : String) : Below place place := ⟨"", by simp, .inl rfl⟩

theorem below_append_underscore (place label : String) : Below place (place ++ "_" ++ label) :=
  ⟨"_" ++ label, String.append_assoc .., .inr ⟨label, rfl⟩⟩

theorem Below.trans {place middle parameter : String} (hmiddle : Below place middle)
    (hparameter : Below middle parameter) : Below place parameter := by
  obtain ⟨rest, rfl, hrest⟩ := hmiddle
  obtain ⟨rest', rfl, hrest'⟩ := hparameter
  refine ⟨rest ++ rest', String.append_assoc .., ?_⟩
  rcases hrest with rfl | ⟨more, rfl⟩
  · simpa using hrest'
  · exact .inr ⟨more ++ rest', String.append_assoc ..⟩

theorem below_partName (parent : String) (siblings index : Nat) :
    Below parent (partName parent siblings index) := by
  unfold partName
  split
  · exact Below.refl parent
  · exact below_append_underscore parent (toString index)

theorem eq_of_toDigits_append {i j : Nat} {rest rest' : List Char}
    (hrest : Stops Char.isDigit rest) (hrest' : Stops Char.isDigit rest')
    (h : Nat.toDigits 10 i ++ rest = Nat.toDigits 10 j ++ rest') : i = j := by
  have hclass : ∀ n, ∀ c ∈ Nat.toDigits 10 n, c.isDigit = true := fun _ _ hc =>
    Nat.isDigit_of_mem_toDigits (by decide) (by decide) hc
  have hdigits := (append_unique Char.isDigit (hclass i) (hclass j) hrest hrest' h).1
  rw [← Nat.ofDigitChars_ten_toDigits (n := i), hdigits, Nat.ofDigitChars_ten_toDigits]

/-- A parameter lies below one position only. -/
theorem Below.index_unique {base parameter : String} {i j : Nat}
    (hi : Below (base ++ toString i) parameter) (hj : Below (base ++ toString j) parameter) :
    i = j := by
  obtain ⟨rest, rfl, hrest⟩ := hi
  obtain ⟨rest', hparameter, hrest'⟩ := hj
  have hhead : ∀ {rest : String}, (rest = "" ∨ ∃ more, rest = "_" ++ more) →
      Stops Char.isDigit rest.toList := by
    rintro rest (rfl | ⟨more, rfl⟩) <;> simp
  rw [← String.toList_inj] at hparameter
  simp only [String.toList_append, List.append_assoc, List.append_cancel_left_eq,
    Nat.toString_eq_ofList_toDigits, String.toList_ofList] at hparameter
  exact eq_of_toDigits_append (hhead hrest) (hhead hrest') hparameter

/-- Among the first `count` names no two have a parameter below both. -/
def Separate (names : Nat → String) (count : Nat) : Prop :=
  ∀ i < count, ∀ j < count, ∀ parameter, Below (names i) parameter → Below (names j) parameter →
    i = j

theorem separate_rootName (space : String) (count : Nat) : Separate (rootName space) count :=
  fun _ _ _ _ _ hi hj => hi.index_unique hj

theorem separate_partName (parent : String) (siblings : Nat) :
    Separate (partName parent siblings) siblings := by
  intro i hi j hj parameter hbelow hbelow'
  by_cases hone : siblings = 1
  · omega
  · rw [partName, if_neg hone] at hbelow hbelow'
    exact hbelow.index_unique hbelow'

/-- Parts with separate names share no parameter. -/
theorem nodup_parameters {α : Type} {arguments : α → List (String × Argument)}
    {names : Nat → String} {parts : List α} (hseparate : Separate names parts.length)
    (hbelow : ∀ part ∈ parts.zipIdx, ∀ argument ∈ arguments part.1, Below (names part.2) argument.1)
    (hnodup : ∀ part ∈ parts, ((arguments part).map Prod.fst).Nodup) :
    ((parts.flatMap arguments).map Prod.fst).Nodup := by
  rw [List.map_flatMap, List.nodup_flatMap]
  refine ⟨hnodup, List.pairwise_iff_getElem.2 ?_⟩
  intro i j hi hj hlt parameter hparameter hparameter'
  obtain ⟨argument, hargument, rfl⟩ := List.mem_map.1 hparameter
  obtain ⟨argument', hargument', heq⟩ := List.mem_map.1 hparameter'
  have hbelow_i := hbelow (parts[i], i) (by simp [List.mk_mem_zipIdx_iff_getElem?]) _ hargument
  have hbelow_j := hbelow (parts[j], j) (by simp [List.mk_mem_zipIdx_iff_getElem?]) _ hargument'
  have := hseparate i hi j hj argument.1 hbelow_i (heq ▸ hbelow_j)
  omega

variable {scope : Scope} {name : String}

namespace Predicate

theorem lowParameter_ne_highParameter (parameter : String) :
    lowParameter parameter ≠ highParameter parameter := by
  intro h
  have hsuffix := String.append_right_inj _ |>.1 h
  contradiction

theorem Placed.parameters_below {predicate : Predicate} (h : predicate.Placed scope name) :
    ∀ argument ∈ predicate.arguments, Below name argument.1 := by
  cases h with
  | compare => simpa [arguments] using Below.refl name
  | member => simpa [arguments] using Below.refl name
  | range =>
      simp only [arguments, List.forall_mem_cons]
      exact ⟨⟨"_start", rfl, .inr ⟨"start", rfl⟩⟩, ⟨"_end", rfl, .inr ⟨"end", rfl⟩⟩, by simp⟩
  | columns => simp [arguments]

theorem Placed.parameters_nodup {predicate : Predicate} (h : predicate.Placed scope name) :
    (predicate.arguments.map Prod.fst).Nodup := by
  cases h with
  | compare => simp [arguments]
  | member => simp [arguments]
  | range => simpa [arguments] using lowParameter_ne_highParameter name
  | columns => simp [arguments]

end Predicate

namespace Expr

theorem arguments_ofParts (connective : Connective) (parts : List Expr) :
    (ofParts connective parts).arguments = parts.flatMap arguments := by
  unfold ofParts
  split
  · simp
  · rw [arguments, partsArguments_eq_flatMap]

theorem Placed.parameters_below {expr : Expr} (h : expr.Placed scope name) :
    ∀ argument ∈ expr.arguments, Below name argument.1 := by
  induction h with
  | leaf h => exact h.parameters_below
  | ofParts connective h ih =>
      rw [arguments_ofParts]
      intro argument hargument
      obtain ⟨part, hpart, hargument⟩ := List.mem_flatMap.1 hargument
      obtain ⟨index, hindex⟩ := exists_mem_zipIdx hpart
      exact (below_partName _ _ _).trans (ih _ hindex argument hargument)

theorem Placed.parameters_nodup {expr : Expr} (h : expr.Placed scope name) :
    (expr.arguments.map Prod.fst).Nodup := by
  induction h with
  | leaf h => exact h.parameters_nodup
  | @ofParts name connective parts h ih =>
      rw [arguments_ofParts]
      apply nodup_parameters (separate_partName name parts.length)
        fun part hpart => (h part hpart).parameters_below
      intro part hpart
      obtain ⟨index, hindex⟩ := exists_mem_zipIdx hpart
      exact ih _ hindex

end Expr

namespace Restriction

/-- The parameters from left to right, with their arguments. -/
def arguments (restriction : Restriction) : List (String × Argument) :=
  restriction.parts.flatMap Expr.arguments

variable {space : String} {restriction : Restriction}

theorem Placed.parameters_nodup (h : restriction.Placed scope space) :
    (restriction.arguments.map Prod.fst).Nodup := by
  apply nodup_parameters (separate_rootName space _)
    fun part hpart => (h part hpart).parameters_below
  intro part hpart
  obtain ⟨index, hindex⟩ := exists_mem_zipIdx hpart
  exact (h _ hindex).parameters_nodup

theorem Placed.parameters_below (h : restriction.Placed scope space) {argument : String × Argument}
    (hargument : argument ∈ restriction.arguments) :
    ∃ index, Below (rootName space index) argument.1 := by
  obtain ⟨part, hpart, hargument⟩ := List.mem_flatMap.1 hargument
  obtain ⟨index, hindex⟩ := exists_mem_zipIdx hpart
  exact ⟨index, (h _ hindex).parameters_below argument hargument⟩

/-- Nothing that a restriction binds is overwritten. -/
theorem Placed.entries_bindings (h : restriction.Placed scope space) :
    restriction.bindings.entries = restriction.arguments := by
  rw [bindings, Expr.partsArguments_eq_flatMap]
  exact Bindings.entries_ofList h.parameters_nodup

end Restriction

end FilterSql
