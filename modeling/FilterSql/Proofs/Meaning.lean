import FilterSql.Proofs.Evaluation
import FilterSql.Proofs.Reading
import Mathlib

/-! Compilation preserves meaning. The text of a restriction has a reading, which is as true as its
parts once their parameters are looked up; parentheses are left out only where the grammar does not
need them. As readings are unique, a compiled filter means what the filter means. -/

namespace FilterSql

variable {scope : Scope} {space : String}

namespace Predicate

theorem comparand?_term {predicate : Predicate} {bindings : Bindings}
    (hbindings : ∀ argument ∈ predicate.arguments,
      bindings.get? argument.1 = some argument.2) :
    predicate.term.comparand? bindings = some predicate.comparand := by
  cases predicate with
  | compare column operator parameter value =>
      simp only [arguments, List.forall_mem_singleton] at hbindings
      simp [term, Term.comparand?, hbindings, comparand]
  | member column operator parameter values =>
      simp only [arguments, List.forall_mem_singleton] at hbindings
      simp [term, Term.comparand?, hbindings, comparand]
  | range column operator parameter low high =>
      simp only [arguments, List.forall_mem_cons] at hbindings
      simp [term, Term.comparand?, hbindings.1, hbindings.2.1, comparand]
  | columns column operator other => rfl

end Predicate

theorem Connective.truth_chain (connective : Connective) {bindings : Bindings}
    {holds : Fact → Bool} {first : Sentence} {sentences : List Sentence} {values : List Bool}
    (h : List.Forall₂ (fun value sentence => sentence.truth bindings holds = some value) values
      (first :: sentences)) :
    (connective.chain first sentences).truth bindings holds = some (connective.combine values) := by
  induction sentences generalizing first values with
  | nil =>
      obtain ⟨value, _, hfirst, ⟨⟩, rfl⟩ := List.forall₂_cons_right_iff.1 h
      simpa [chain] using hfirst
  | cons next rest ih =>
      obtain ⟨value, values, hfirst, hrest, rfl⟩ := List.forall₂_cons_right_iff.1 h
      cases connective <;>
        simp [chain, pair, Sentence.truth, hfirst, ih hrest, combine]

namespace Expr

/-- The reading is as true as the expression, for all bindings of its arguments. -/
def Means (expr : Expr) (sentence : Sentence) : Prop :=
  ∀ bindings : Bindings,
    (∀ argument ∈ expr.arguments, bindings.get? argument.1 = some argument.2) →
      ∀ holds, sentence.truth bindings holds = some (expr.truth holds)

theorem means_leaf (predicate : Predicate) : (leaf predicate).Means
    (.comparison predicate.column predicate.operator.sql predicate.term) := by
  intro bindings hbindings holds
  rw [arguments] at hbindings
  simp [Sentence.truth, Predicate.comparand?_term hbindings, truth, Predicate.fact]

theorem truth_chain_of_means {connective : Connective} {parts : List Expr} {first : Sentence}
    {sentences : List Sentence} {bindings : Bindings}
    (h : List.Forall₂ Means parts (first :: sentences))
    (hbindings : ∀ argument ∈ parts.flatMap arguments,
      bindings.get? argument.1 = some argument.2) (holds : Fact → Bool) :
    (connective.chain first sentences).truth bindings holds =
      some (connective.combine (parts.map (truth holds))) := by
  apply connective.truth_chain
  rw [List.forall₂_map_left_iff]
  rw [List.forall_mem_flatMap] at hbindings
  exact ((List.forall₂_and_left _ _).2 ⟨hbindings, h⟩).imp fun part sentence hpart =>
    hpart.2 bindings hpart.1 holds

theorem means_chain (connective : Connective) (parts : List Expr) (first : Sentence)
    (sentences : List Sentence) (h : List.Forall₂ Means parts (first :: sentences)) :
    (ofParts connective parts).Means (connective.chain first sentences) := by
  intro bindings hbindings holds
  rw [arguments_ofParts] at hbindings
  rw [truth_ofParts]
  exact truth_chain_of_means h hbindings holds

end Expr

/-- The reading of a restriction under its own bindings. -/
theorem Restriction.Placed.reads {restriction : Restriction} (h : restriction.Placed scope space)
    (howner : IsWord scope.owner) (hspace : MadeOf isWordChar space)
    (hne : restriction.parts ≠ []) (hfull : ∀ part ∈ restriction.parts, part.IsFull) :
    ∃ sentence, Reads .disjunction restriction.sql sentence ∧
      ∀ holds, sentence.truth restriction.bindings holds =
        some (restriction.connective.combine (restriction.parts.map (Expr.truth holds))) := by
  obtain ⟨first, sentences, hreads, hparts⟩ :=
    h.exists_chain howner hspace hne hfull Expr.means_leaf Expr.means_chain
  refine ⟨_, hreads, Expr.truth_chain_of_means hparts ?_⟩
  intro argument hargument
  apply Bindings.get?_eq_some_of_mem
  · rw [Bindings.names, h.entries_bindings]
    exact h.parameters_nodup
  · rw [h.entries_bindings]
    exact hargument

theorem Filter.isEmpty_eq_false {filter : Filter} (hlist : filter ≠ .list [])
    (hobject : filter ≠ .object []) : filter.isEmpty = false := by
  cases filter with
  | scalar value => rfl
  | list items => simpa [isEmpty] using hlist
  | object entries => simpa [isEmpty] using hobject

/-- The text of a compiled filter has exactly one reading, and whatever facts hold, that is true
when the filter is. -/
theorem Filter.truth_eq_reading {wildcards : Wildcards} {filter : Filter} {formula : Formula}
    {restriction : Restriction} (hscope : scope.IsNamed) (hspace : MadeOf isWordChar space)
    (hlist : filter ≠ .list []) (hobject : filter ≠ .object [])
    (hformula : Formula.ofFilter wildcards filter = .ok formula)
    (hrestriction : formula.restriction scope space = .ok restriction) :
    ∃ sentence, (∀ other, Reads .disjunction restriction.sql other ↔ other = sentence) ∧
      ∀ holds, ∃ value, filter.truth wildcards scope holds = some value ∧
        sentence.truth restriction.bindings holds = some value := by
  have hplaced := Formula.placed_of_restriction hrestriction
  rw [Formula.ofFilter, isEmpty_eq_false hlist hobject] at hformula
  rw [Formula.restriction_eq_map_parts] at hrestriction
  obtain ⟨parts, hparts, rfl⟩ := map_eq_ok.1 hrestriction
  have hkept := fun holds =>
    Filter.kept holds filter formula (rootName space) parts hformula hparts
  obtain ⟨-, hne, hfull⟩ := hkept fun _ => true
  obtain ⟨sentence, hreads, htruth⟩ := hplaced.reads hscope.owner hspace hne hfull
  refine ⟨sentence, ?_, fun holds => ⟨_, (hkept holds).1, htruth holds⟩⟩
  intro other
  constructor
  · intro hother
    exact hother.sentence_unique hreads
  · rintro rfl
    exact hreads

theorem Filter.truth_eq_reading_alternatives :
    let filter := Filter.list [
      .object [("name", .object [("$like", .scalar (.text "ann")), ("$ne", .scalar .null)])],
      .object [("o.age", .object [("$gtCol", .scalar (.text "age"))])]]
    let scope : Scope := ⟨"t", ["o"], none⟩
    let formula := Formula.disjunction [
      .conjunction [.column "name"
        (.every [⟨.like, .scalar (.text "%ann%")⟩, ⟨.ne, .scalar .null⟩])],
      .conjunction [.column "o.age" (.every [⟨.gtCol, .column "age"⟩])]]
    let restriction : Restriction := ⟨.or, [
      .group .and [.leaf (.compare (.path "t" ["name"]) .like "0_0" (.text "%ann%")),
        .leaf (.compare (.path "t" ["name"]) .ne "0_1" .null)],
      .leaf (.columns (.path "o" ["age"]) .gtCol (.path "t" ["age"]))]⟩
    Formula.ofFilter .anywhere filter = .ok formula ∧
      formula.restriction scope "" = .ok restriction ∧
      restriction.sql = "(t.name LIKE :0_0 AND t.name != :0_1) OR o.age > t.age" ∧
      ∃ sentence, (∀ other, Reads .disjunction restriction.sql other ↔ other = sentence) ∧
        ∀ holds, ∃ value, filter.truth .anywhere scope holds = some value ∧
          sentence.truth restriction.bindings holds = some value := by
  intro filter scope formula restriction
  have hformula : Formula.ofFilter .anywhere filter = .ok formula := rfl
  have hrestriction : formula.restriction scope "" = .ok restriction := by cbv
  refine ⟨hformula, hrestriction, by decide, ?_⟩
  exact Filter.truth_eq_reading ⟨by decide, by decide, by decide⟩ (by decide) (by simp [filter])
    (by simp [filter]) hformula hrestriction

end FilterSql
