import FilterSql.Proofs.Truth

/-! The columns of boolean SQL text. The readings of several texts give the reading of these texts
with a connective in between, so the text of an expression refers to the columns of its predicates,
from left to right, and to no others. -/

namespace FilterSql

/-! ### Readings in a row -/

namespace Connective

def pair : Connective → Sentence → Sentence → Sentence
  | .and => .both
  | .or => .either

/-- The reading of texts with the connective in between. -/
def chain (connective : Connective) (first : Sentence) : List Sentence → Sentence
  | [] => first
  | next :: rest => connective.pair first (connective.chain next rest)

variable {text : String} {texts : List String} {first : Sentence} {sentences : List Sentence}

theorem reads_chain_and (hfirst : Reads .atom text first)
    (h : List.Forall₂ (Reads .atom) texts sentences) :
    Reads .conjunction (" AND ".intercalate (text :: texts)) (Connective.and.chain first sentences)
    := by
  induction h generalizing text first with
  | nil =>
      rw [String.intercalate_singleton]
      exact .atom hfirst
  | cons hnext _ ih =>
      rw [String.intercalate_cons_cons]
      exact .both hfirst (ih hnext)

theorem reads_chain_or (hfirst : Reads .atom text first)
    (h : List.Forall₂ (Reads .atom) texts sentences) :
    Reads .disjunction (" OR ".intercalate (text :: texts)) (Connective.or.chain first sentences)
    := by
  induction h generalizing text first with
  | nil =>
      rw [String.intercalate_singleton]
      exact .conjunction (.atom hfirst)
  | cons hnext _ ih =>
      rw [String.intercalate_cons_cons]
      exact .either (.atom hfirst) (ih hnext)

theorem reads_chain (connective : Connective) (hfirst : Reads .atom text first)
    (h : List.Forall₂ (Reads .atom) texts sentences) :
    Reads .disjunction (connective.separator.intercalate (text :: texts))
      (connective.chain first sentences) := by
  cases connective with
  | and => exact .conjunction (reads_chain_and hfirst h)
  | or => exact reads_chain_or hfirst h

end Connective

/-! ### References -/

def Term.references : Term → List ColumnRef
  | .parameter _ => []
  | .spread _ => []
  | .between _ _ => []
  | .column other => [other]

/-- The columns of a reading from left to right. -/
def Sentence.references : Sentence → List ColumnRef
  | .comparison column _ term => column :: term.references
  | .both left right => left.references ++ right.references
  | .either left right => left.references ++ right.references

theorem Connective.references_chain (connective : Connective) (first : Sentence)
    (sentences : List Sentence) :
    (connective.chain first sentences).references =
      (first :: sentences).flatMap Sentence.references := by
  induction sentences generalizing first with
  | nil => simp [chain]
  | cons next rest ih =>
      rw [chain, List.flatMap_cons, ← ih]
      cases connective <;> rfl

def Predicate.references (predicate : Predicate) : List ColumnRef :=
  predicate.column :: predicate.term.references

namespace Expr

mutual

/-- The columns of the predicates from left to right. -/
def references : Expr → List ColumnRef
  | .leaf predicate => predicate.references
  | .group _ parts => partsReferences parts
termination_by structural expression => expression

def partsReferences : List Expr → List ColumnRef
  | [] => []
  | part :: parts => references part ++ partsReferences parts
termination_by structural parts => parts

end

theorem partsReferences_eq_flatMap (parts : List Expr) :
    partsReferences parts = parts.flatMap references := by
  induction parts with
  | nil => rfl
  | cons part parts ih => rw [partsReferences, ih, List.flatMap_cons]

theorem references_ofParts (connective : Connective) (parts : List Expr) :
    (ofParts connective parts).references = parts.flatMap references := by
  unfold ofParts
  split
  · simp
  · rw [references, partsReferences_eq_flatMap]

end Expr

/-! ### Readings of expressions -/

namespace Expr

variable {scope : Scope} {name : String} {parts : List Expr} {P : Expr → Sentence → Prop}

theorem exists_chain (connective : Connective) (hne : parts ≠ [])
    (hparts : ∀ part ∈ parts, ∃ sentence, Reads .atom part.sql sentence ∧ P part sentence) :
    ∃ first sentences,
      Reads .disjunction (connective.separator.intercalate (partsSql parts))
        (connective.chain first sentences) ∧
      List.Forall₂ P parts (first :: sentences) := by
  obtain ⟨sentences, hsentences⟩ := exists_forall₂ hparts
  cases hsentences with
  | nil => exact absurd rfl hne
  | @cons part first rest others hfirst hrest =>
      refine ⟨first, others, ?_, .cons hfirst.2 (hrest.imp fun _ _ hpart => hpart.2)⟩
      rw [partsSql_eq_map]
      apply connective.reads_chain hfirst.1
      rw [List.forall₂_map_left_iff]
      exact hrest.imp fun _ _ hpart => hpart.1

/-- The text of a placed expression has a reading. What holds of predicates and their comparisons,
and passes from parts to the chain of their readings, holds of the expression and its reading. -/
theorem Placed.exists_reading {expr : Expr} (h : expr.Placed scope name)
    (howner : IsWord scope.owner) (hname : IsWord name) (hfull : expr.IsFull)
    (leaf : ∀ predicate : Predicate, P (.leaf predicate)
      (.comparison predicate.column predicate.operator.sql predicate.term))
    (chain : ∀ connective parts first sentences, List.Forall₂ P parts (first :: sentences) →
      P (Expr.ofParts connective parts) (connective.chain first sentences)) :
    ∃ sentence, Reads .atom expr.sql sentence ∧ P expr sentence := by
  revert hfull
  refine h.word_induction hname ?_ ?_
  · intro name predicate h hname _
    refine ⟨_, ?_, leaf predicate⟩
    rw [sql, Predicate.sql_eq_term]
    exact .comparison (h.isSingle howner) (h.follows howner hname)
  · intro connective parts hparts hfull
    obtain ⟨hne, hfull⟩ := isFull_ofParts.1 hfull
    have hreadings : ∀ part ∈ parts, ∃ sentence, Reads .atom part.sql sentence ∧ P part sentence :=
      fun part hpart => hparts part hpart (hfull part hpart)
    match parts, hne with
    | [part], _ => exact hreadings part (by simp)
    | part :: next :: rest, hne =>
      obtain ⟨first, sentences, hreads, hchain⟩ := exists_chain connective hne hreadings
      exact ⟨_, .parenthesized hreads, chain connective _ first sentences hchain⟩

end Expr

theorem Restriction.Placed.exists_chain {scope : Scope} {space : String}
    {restriction : Restriction} {P : Expr → Sentence → Prop} (h : restriction.Placed scope space)
    (howner : IsWord scope.owner) (hspace : MadeOf isWordChar space)
    (hne : restriction.parts ≠ []) (hfull : ∀ part ∈ restriction.parts, part.IsFull)
    (leaf : ∀ predicate : Predicate, P (.leaf predicate)
      (.comparison predicate.column predicate.operator.sql predicate.term))
    (chain : ∀ connective parts first sentences, List.Forall₂ P parts (first :: sentences) →
      P (Expr.ofParts connective parts) (connective.chain first sentences)) :
    ∃ first sentences,
      Reads .disjunction restriction.sql (restriction.connective.chain first sentences) ∧
      List.Forall₂ P restriction.parts (first :: sentences) := by
  apply Expr.exists_chain restriction.connective hne
  intro part hpart
  obtain ⟨name, hname, hplaced⟩ := h.exists_word hspace hpart
  exact hplaced.exists_reading howner hname (hfull part hpart) leaf chain

def Restriction.references (restriction : Restriction) : List ColumnRef :=
  Expr.partsReferences restriction.parts

/-- The text of a restriction has one reading, and that refers to the columns of the restriction. -/
theorem Restriction.Placed.reading {scope : Scope} {space : String} {restriction : Restriction}
    (h : restriction.Placed scope space) (howner : IsWord scope.owner)
    (hspace : MadeOf isWordChar space) (hempty : restriction.isEmpty = false)
    (hfull : ∀ part ∈ restriction.parts, part.IsFull) :
    ∃ sentence, (∀ other, Reads .disjunction restriction.sql other ↔ other = sentence) ∧
      sentence.references = restriction.references := by
  have hne : restriction.parts ≠ [] := by simpa [isEmpty] using hempty
  have hchain : ∀ {connective : Connective} {parts : List Expr} {first : Sentence}
      {sentences : List Sentence},
      List.Forall₂ (fun part sentence => sentence.references = part.references) parts
          (first :: sentences) →
        (connective.chain first sentences).references = parts.flatMap Expr.references := by
    intro connective parts first sentences hparts
    rw [connective.references_chain]
    exact flatMap_of_forall₂ hparts fun _ _ _ hpart => hpart
  obtain ⟨first, sentences, hreads, hparts⟩ := h.exists_chain howner hspace hne hfull
    (fun predicate => by rw [Expr.references]; rfl)
    (fun connective parts first sentences hparts =>
      (hchain hparts).trans (Expr.references_ofParts connective parts).symm)
  refine ⟨_, fun other => ⟨fun hother => hother.sentence_unique hreads, ?_⟩, ?_⟩
  · rintro rfl
    exact hreads
  · rw [hchain hparts, references, Expr.partsReferences_eq_flatMap]

end FilterSql
