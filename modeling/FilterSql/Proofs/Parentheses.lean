import FilterSql.Proofs.Layout

/-! Parentheses of compiled conditions. A pair stands around two operands or more that are joined by
one connective, and around nothing else, so it never matters which connective binds more strongly:
all layouts of the text say the same. -/

namespace FilterSql

/-! ### Readings of a layout -/

/-- The sentences are equally true, whatever is bound and whichever facts hold. -/
def Sentence.SameTruth (sentence other : Sentence) : Prop :=
  ∀ (bindings : Bindings) (holds : Fact → Bool),
    sentence.truth bindings holds = other.truth bindings holds

namespace Sentence.SameTruth

theorem refl (sentence : Sentence) : sentence.SameTruth sentence := fun _ _ => rfl

theorem symm {sentence other : Sentence} (h : sentence.SameTruth other) :
    other.SameTruth sentence :=
  fun bindings holds => (h bindings holds).symm

theorem trans {first second third : Sentence} (h : first.SameTruth second)
    (h' : second.SameTruth third) : first.SameTruth third :=
  fun bindings holds => (h bindings holds).trans (h' bindings holds)

end Sentence.SameTruth

namespace Connective

/-- What a row of operands with the connective reads as. -/
def strength : Connective → Strength
  | .and => .conjunction
  | .or => .disjunction

theorem pair_congr (connective : Connective) {left left' right right' : Sentence}
    (hleft : left.SameTruth left') (hright : right.SameTruth right') :
    (connective.pair left right).SameTruth (connective.pair left' right') := by
  intro bindings holds
  cases connective <;> simp only [pair, Sentence.truth, hleft bindings holds, hright bindings holds]

theorem pair_assoc (connective : Connective) (first second third : Sentence) :
    (connective.pair first (connective.pair second third)).SameTruth
      (connective.pair (connective.pair first second) third) := by
  intro bindings holds
  cases connective <;> simp only [pair, Sentence.truth] <;>
    cases first.truth bindings holds <;> cases second.truth bindings holds <;>
    cases third.truth bindings holds <;> simp [Bool.and_assoc, Bool.or_assoc]

end Connective

namespace Reads

variable {text text' : String} {sentence left right : Sentence}

theorem of_atom (connective : Connective) (h : Reads .atom text sentence) :
    Reads connective.strength text sentence := by
  cases connective with
  | and => exact .atom h
  | or => exact .conjunction (.atom h)

theorem of_strength {connective : Connective} (h : Reads connective.strength text sentence) :
    Reads .disjunction text sentence := by
  cases connective with
  | and => exact .conjunction h
  | or => exact h

/-- The operands of both rows stand in one row, with other parentheses around their readings. -/
theorem exists_both (hleft : Reads .conjunction text left)
    (hright : Reads .conjunction text' right) :
    ∃ sentence, Reads .conjunction (text ++ " AND " ++ text') sentence ∧
      sentence.SameTruth (Connective.and.pair left right) := by
  generalize hstrength : Strength.conjunction = strength at hleft
  induction hleft with
  | atom h => exact ⟨_, .both h hright, .refl _⟩
  | @both front back first second hfirst hsecond _ ih =>
      obtain ⟨rest, hrest, htruth⟩ := ih rfl
      have hreads := Reads.both hfirst hrest
      refine ⟨.both first rest, by simpa only [String.append_assoc] using hreads, ?_⟩
      exact (Connective.and.pair_congr (.refl first) htruth).trans
        (Connective.and.pair_assoc first second right)
  | comparison => contradiction
  | parenthesized => contradiction
  | conjunction => contradiction
  | either => contradiction

theorem exists_either (hleft : Reads .disjunction text left)
    (hright : Reads .disjunction text' right) :
    ∃ sentence, Reads .disjunction (text ++ " OR " ++ text') sentence ∧
      sentence.SameTruth (Connective.or.pair left right) := by
  generalize hstrength : Strength.disjunction = strength at hleft
  induction hleft with
  | conjunction h => exact ⟨_, .either h hright, .refl _⟩
  | @either front back first second hfirst hsecond _ ih =>
      obtain ⟨rest, hrest, htruth⟩ := ih rfl
      have hreads := Reads.either hfirst hrest
      refine ⟨.either first rest, by simpa only [String.append_assoc] using hreads, ?_⟩
      exact (Connective.or.pair_congr (.refl first) htruth).trans
        (Connective.or.pair_assoc first second right)
  | comparison => contradiction
  | parenthesized => contradiction
  | atom => contradiction
  | both => contradiction

theorem exists_pair (connective : Connective) (hleft : Reads connective.strength text left)
    (hright : Reads connective.strength text' right) :
    ∃ sentence, Reads connective.strength (text ++ connective.separator ++ text') sentence ∧
      sentence.SameTruth (connective.pair left right) := by
  cases connective with
  | and => exact exists_both hleft hright
  | or => exact exists_either hleft hright

end Reads

namespace Layout

variable {layout : Layout}

/-- A layout whose groups are canonical reads as it says: as an operand if it has no connective
outside of parentheses, as a row of operands if it has one. -/
theorem IsReadable.exists_reads (h : layout.IsReadable)
    (hgroups : ∀ group ∈ layout.levels.groups, group ≠ [] ∧ IsUniform group) :
    (layout.levels.outer = [] →
      ∃ sentence, Reads .atom layout.sql sentence ∧ sentence.SameTruth layout.sentence) ∧
    ∀ connective, (∀ other ∈ layout.levels.outer, other = connective) →
      ∃ sentence, Reads connective.strength layout.sql sentence ∧
        sentence.SameTruth layout.sentence := by
  induction h with
  | @comparison column operator term hcolumn hterm =>
      have hreads : Reads .atom (Layout.comparison column operator term).sql
          (.comparison column operator term) := .comparison hcolumn hterm
      exact ⟨fun _ => ⟨_, hreads, .refl _⟩,
        fun connective _ => ⟨_, hreads.of_atom connective, .refl _⟩⟩
  | @parenthesized inner h ih =>
      rw [levels, List.forall_mem_append, List.forall_mem_singleton] at hgroups
      obtain ⟨hinner, -, connective, hconnective⟩ := hgroups
      obtain ⟨sentence, hreads, htruth⟩ := (ih hinner).2 connective hconnective
      have hatom : Reads .atom (Layout.parenthesized inner).sql sentence :=
        .parenthesized hreads.of_strength
      exact ⟨fun _ => ⟨sentence, hatom, htruth⟩,
        fun connective _ => ⟨sentence, hatom.of_atom connective, htruth⟩⟩
  | @joined connective left right hleft hright ihleft ihright =>
      rw [levels, List.forall_mem_append] at hgroups
      refine ⟨by simp [levels], ?_⟩
      intro other hother
      rw [levels, List.forall_mem_append, List.forall_mem_cons] at hother
      obtain ⟨houter, rfl, houter'⟩ := hother
      obtain ⟨sentence, hreads, htruth⟩ := (ihleft hgroups.1).2 connective houter
      obtain ⟨sentence', hreads', htruth'⟩ := (ihright hgroups.2).2 connective houter'
      obtain ⟨pair, hpair, hsame⟩ := Reads.exists_pair connective hreads hreads'
      exact ⟨pair, hpair, hsame.trans (connective.pair_congr htruth htruth')⟩

/-- Where each level has one connective, the text alone tells what it says. -/
theorem IsReadable.sameTruth {layout other : Layout} (h : layout.IsReadable)
    (hother : other.IsReadable) (hsql : other.sql = layout.sql)
    (hcanonical : layout.levels.IsCanonical) : other.sentence.SameTruth layout.sentence := by
  have hlevels := h.levels_eq hother hsql
  obtain ⟨connective, houter⟩ := hcanonical.outer
  obtain ⟨sentence, hreads, htruth⟩ :=
    (h.exists_reads hcanonical.groups).2 connective houter
  obtain ⟨sentence', hreads', htruth'⟩ :=
    (hother.exists_reads (hlevels ▸ hcanonical.groups)).2 connective (hlevels ▸ houter)
  rw [hsql] at hreads'
  obtain rfl := hreads.of_strength.sentence_unique hreads'.of_strength
  exact htruth'.symm.trans htruth

/-! ### Rows of operands -/

/-- The comparisons from left to right. -/
def comparisons : Layout → List Sentence
  | .comparison column operator term => [.comparison column operator term]
  | .parenthesized inner => inner.comparisons
  | .joined _ left right => left.comparisons ++ right.comparisons

end Layout

namespace Connective

/-- The operands in a row, with the connective in between. -/
def row (connective : Connective) (first : Layout) : List Layout → Layout
  | [] => first
  | next :: rest => .joined connective first (connective.row next rest)

variable (connective : Connective) (first : Layout) (rest : List Layout)

theorem sql_row :
    (connective.row first rest).sql =
      connective.separator.intercalate ((first :: rest).map Layout.sql) := by
  induction rest generalizing first with
  | nil => rw [row, List.map_singleton, String.intercalate_singleton]
  | cons next rest ih =>
      simp only [row, Layout.sql, ih, List.map_cons, String.intercalate_cons_cons]

theorem outer_row {first : Layout} {rest : List Layout}
    (h : ∀ operand ∈ first :: rest, operand.levels.outer = []) :
    (connective.row first rest).levels.outer = List.replicate rest.length connective := by
  induction rest generalizing first with
  | nil => exact h first List.mem_cons_self
  | cons next rest ih =>
      rw [List.forall_mem_cons] at h
      rw [row, Layout.levels, h.1, ih h.2]
      rfl

theorem groups_row :
    (connective.row first rest).levels.groups =
      (first :: rest).flatMap fun operand => operand.levels.groups := by
  induction rest generalizing first with
  | nil => simp [row]
  | cons next rest ih =>
      rw [row, Layout.levels, ih]
      rfl

theorem comparisons_row :
    (connective.row first rest).comparisons = (first :: rest).flatMap Layout.comparisons := by
  induction rest generalizing first with
  | nil => simp [row]
  | cons next rest ih =>
      rw [row, Layout.comparisons, ih]
      rfl

theorem isReadable_row {first : Layout} {rest : List Layout}
    (h : ∀ operand ∈ first :: rest, operand.IsReadable) :
    (connective.row first rest).IsReadable := by
  induction rest generalizing first with
  | nil => exact h first List.mem_cons_self
  | cons next rest ih =>
      rw [List.forall_mem_cons] at h
      exact .joined connective h.1 (ih h.2)

end Connective

/-! ### Layouts of expressions -/

def Predicate.comparison (predicate : Predicate) : Sentence :=
  .comparison predicate.column predicate.operator.sql predicate.term

namespace Expr

mutual

/-- The predicates from left to right. -/
def predicates : Expr → List Predicate
  | .leaf predicate => [predicate]
  | .group _ parts => partsPredicates parts
termination_by structural expression => expression

def partsPredicates : List Expr → List Predicate
  | [] => []
  | part :: parts => predicates part ++ partsPredicates parts
termination_by structural parts => parts

end

theorem partsPredicates_eq_flatMap (parts : List Expr) :
    partsPredicates parts = parts.flatMap predicates := by
  induction parts with
  | nil => rfl
  | cons part parts ih => rw [partsPredicates, ih, List.flatMap_cons]

/-- The layout is that of the expression as one operand. -/
structure LaidOut (expr : Expr) (layout : Layout) : Prop where
  sql : layout.sql = expr.sql
  comparisons : layout.comparisons = expr.predicates.map Predicate.comparison
  outer : layout.levels.outer = []
  groups : ∀ group ∈ layout.levels.groups, group ≠ [] ∧ IsUniform group

/-- The layout is that of the expressions in a row. -/
structure AreLaidOut (connective : Connective) (parts : List Expr) (layout : Layout) : Prop where
  sql : layout.sql = connective.separator.intercalate (partsSql parts)
  comparisons : layout.comparisons = (partsPredicates parts).map Predicate.comparison
  outer : layout.levels.outer = List.replicate (parts.length - 1) connective
  groups : ∀ group ∈ layout.levels.groups, group ≠ [] ∧ IsUniform group

theorem areLaidOut_row (connective : Connective) {parts : List Expr} {first : Layout}
    {rest : List Layout} (h : List.Forall₂ LaidOut parts (first :: rest)) :
    AreLaidOut connective parts (connective.row first rest) := by
  have hoperands : ∀ operand ∈ first :: rest, ∃ part, LaidOut part operand := by
    intro operand hoperand
    obtain ⟨part, -, hpart⟩ := exists_mem_of_forall₂ h hoperand
    exact ⟨part, hpart⟩
  constructor
  · have htexts : (first :: rest).map Layout.sql = parts.map Expr.sql := by
      rw [← List.forall₂_eq_eq_eq, List.forall₂_map_left_iff, List.forall₂_map_right_iff]
      exact h.flip.imp fun _ _ hpart => hpart.sql
    rw [connective.sql_row, partsSql_eq_map, htexts]
  · rw [connective.comparisons_row, partsPredicates_eq_flatMap, List.map_flatMap]
    exact flatMap_of_forall₂ h fun _ _ _ hpart => hpart.comparisons
  · have houter : ∀ operand ∈ first :: rest, operand.levels.outer = [] := by
      intro operand hoperand
      obtain ⟨part, hpart⟩ := hoperands operand hoperand
      exact hpart.outer
    rw [connective.outer_row houter, h.length_eq]
    rfl
  · rw [connective.groups_row]
    intro group hgroup
    obtain ⟨operand, hoperand, hgroup⟩ := List.mem_flatMap.1 hgroup
    obtain ⟨part, hpart⟩ := hoperands operand hoperand
    exact hpart.groups group hgroup

theorem AreLaidOut.isCanonical {connective : Connective} {parts : List Expr} {layout : Layout}
    (h : AreLaidOut connective parts layout) : layout.levels.IsCanonical := by
  refine ⟨⟨connective, ?_⟩, h.groups⟩
  rw [h.outer]
  exact fun _ => List.eq_of_mem_replicate

variable {scope : Scope} {name : String}

/-- Operands that have layouts have one in a row. -/
theorem exists_row (connective : Connective) {P : Prop} {parts : List Expr} (hne : parts ≠ [])
    (hparts : ∀ part ∈ parts, ∃ layout, LaidOut part layout ∧ (P → layout.IsReadable)) :
    ∃ layout, AreLaidOut connective parts layout ∧ (P → layout.IsReadable) := by
  obtain ⟨layouts, hlayouts⟩ := exists_forall₂ hparts
  cases layouts with
  | nil => exact absurd (List.forall₂_nil_right_iff.1 hlayouts) hne
  | cons first rest =>
      refine ⟨connective.row first rest, areLaidOut_row connective ?_, fun hP => ?_⟩
      · exact hlayouts.imp fun _ _ hpart => hpart.1
      · apply connective.isReadable_row
        intro operand hoperand
        obtain ⟨part, -, -, hreadable⟩ := exists_mem_of_forall₂ hlayouts hoperand
        exact hreadable hP

/-- A group of several parts is put into parentheses, and nothing else is. -/
theorem Placed.exists_layout {expr : Expr} (h : expr.Placed scope name) (hfull : expr.IsFull) :
    ∃ layout, LaidOut expr layout ∧
      (IsWord scope.owner ∧ IsWord name → layout.IsReadable) := by
  induction h with
  | @leaf name predicate h =>
      let layout := Layout.comparison predicate.column predicate.operator.sql predicate.term
      refine ⟨layout, ⟨?_, rfl, rfl, by simp [layout, Layout.levels]⟩, ?_⟩
      · rw [Expr.sql, Predicate.sql_eq_term]
        rfl
      · rintro ⟨howner, hname⟩
        exact .comparison (h.isSingle howner) (h.follows howner hname)
  | @ofParts name connective parts h ih =>
      rw [isFull_ofParts] at hfull
      have hparts : ∀ part ∈ parts, ∃ layout, LaidOut part layout ∧
          (IsWord scope.owner ∧ IsWord name → layout.IsReadable) := by
        intro part hpart
        obtain ⟨index, hindex⟩ := exists_mem_zipIdx hpart
        obtain ⟨layout, hlayout, hreadable⟩ := ih _ hindex (hfull.2 part hpart)
        exact ⟨layout, hlayout, fun hwords =>
          hreadable ⟨hwords.1, isWord_partName hwords.2 _ _⟩⟩
      obtain ⟨part, rest, rfl⟩ := List.exists_cons_of_ne_nil hfull.1
      cases rest with
      | nil => exact hparts part List.mem_cons_self
      | cons next rest =>
          obtain ⟨layout, hlayout, hreadable⟩ := exists_row connective hfull.1 hparts
          have hgroup : Expr.ofParts connective (part :: next :: rest) =
              .group connective (part :: next :: rest) := rfl
          refine ⟨.parenthesized layout, ⟨?_, ?_, rfl, ?_⟩,
            fun hwords => .parenthesized (hreadable hwords)⟩
          · rw [Layout.sql, hlayout.sql, hgroup, Expr.sql]
          · rw [Layout.comparisons, hlayout.comparisons, hgroup, predicates]
          · rw [Layout.levels, List.forall_mem_append, List.forall_mem_singleton]
            refine ⟨hlayout.groups, ?_, hlayout.isCanonical.outer⟩
            rw [hlayout.outer]
            simp

end Expr

def Restriction.predicates (restriction : Restriction) : List Predicate :=
  Expr.partsPredicates restriction.parts

/-- The text of a compiled filter is laid out canonically: it is made of the predicates, of the
connectives and of parentheses, each pair of which holds two operands or more, and each level of it
has one connective. If the names are words, this can be told from the text: it has levels, so its
parentheses are balanced, and however it is laid out, which of `AND` and `OR` binds more strongly
makes no difference to what it says. -/
theorem Filter.parentheses_canonical {wildcards : Wildcards} {scope : Scope} {space : String}
    {filter : Filter} {formula : Formula} {restriction : Restriction}
    (hfilter : filter.isEmpty = false) (hformula : Formula.ofFilter wildcards filter = .ok formula)
    (hrestriction : formula.restriction scope space = .ok restriction) :
    ∃ layout : Layout, layout.sql = restriction.sql ∧
      layout.comparisons = restriction.predicates.map Predicate.comparison ∧
      layout.levels.IsCanonical ∧
      (IsWord scope.owner → MadeOf isWordChar space →
        layout.IsReadable ∧ Levels.ofText? restriction.sql = some layout.levels ∧
        ∀ other : Layout, other.IsReadable → other.sql = restriction.sql →
          other.levels = layout.levels ∧ other.sentence.SameTruth layout.sentence) := by
  obtain ⟨hfull, hempty⟩ := Formula.isFull_of_restriction hformula hrestriction
  have hplaced := Formula.placed_of_restriction hrestriction
  have hne : restriction.parts ≠ [] := by
    rw [hfilter] at hempty
    simpa [Restriction.isEmpty] using hempty
  have hparts : ∀ part ∈ restriction.parts, ∃ layout, part.LaidOut layout ∧
      (IsWord scope.owner ∧ MadeOf isWordChar space → layout.IsReadable) := by
    intro part hpart
    obtain ⟨index, hindex⟩ := exists_mem_zipIdx hpart
    obtain ⟨layout, hlayout, hreadable⟩ := (hplaced _ hindex).exists_layout (hfull part hpart)
    exact ⟨layout, hlayout, fun hwords =>
      hreadable ⟨hwords.1, isWord_rootName hwords.2 index⟩⟩
  obtain ⟨layout, hlayout, hreadable⟩ := Expr.exists_row restriction.connective hne hparts
  refine ⟨layout, hlayout.sql, hlayout.comparisons, hlayout.isCanonical, fun howner hspace => ?_⟩
  have hwords := hreadable ⟨howner, hspace⟩
  have hsql : layout.sql = restriction.sql := hlayout.sql
  rw [← hsql]
  exact ⟨hwords, hwords.ofText?, fun other hother hother_sql =>
    ⟨hwords.levels_eq hother hother_sql, hwords.sameTruth hother hother_sql hlayout.isCanonical⟩⟩

/-- The parentheses of the list parameter and the word between the bounds belong to no level. -/
theorem Filter.parentheses_canonical_nested :
    let filter := Filter.object [
      ("a", .object [("$between", .list [.scalar (.int 1), .scalar (.int 2)]),
        ("$in", .list [.scalar .null])]),
      ("$or", .list [
        .object [("b", .scalar (.bool true))],
        .list [.object [("c", .scalar (.int 3)), ("d", .scalar (.int 4))]]])]
    let sql := "(t.a BETWEEN :0_0_start AND :0_0_end AND t.a IN (:...0_1)) AND " ++
      "(t.b = :1_0 OR (t.c = :1_1_0 AND t.d = :1_1_1))"
    ∃ formula restriction, Formula.ofFilter .anywhere filter = .ok formula ∧
      formula.restriction (Scope.ofMain "t") "" = .ok restriction ∧ restriction.sql = sql ∧
      Levels.ofText? sql = some ⟨[.and], [[.and], [.and], [.or]]⟩ ∧
      ∃ layout : Layout, layout.IsReadable ∧ layout.sql = sql ∧ layout.levels.IsCanonical ∧
        ∀ other : Layout, other.IsReadable → other.sql = sql →
          other.levels = layout.levels ∧ other.sentence.SameTruth layout.sentence := by
  intro filter sql
  obtain ⟨formula, restriction, hformula, hrestriction, hsql⟩ :
      ∃ formula restriction, Formula.ofFilter .anywhere filter = .ok formula ∧
        formula.restriction (Scope.ofMain "t") "" = .ok restriction ∧ restriction.sql = sql :=
    ⟨_, _, rfl, by cbv, by cbv⟩
  obtain ⟨layout, hlayout, -, hcanonical, hwords⟩ :=
    Filter.parentheses_canonical rfl hformula hrestriction
  obtain ⟨hreadable, -, hothers⟩ := hwords (by decide) (by decide)
  rw [hsql] at hlayout hothers
  exact ⟨formula, restriction, hformula, hrestriction, hsql, by decide +kernel, layout, hreadable,
    hlayout, hcanonical, hothers⟩

end FilterSql
