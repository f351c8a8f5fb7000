import FilterSql.Proofs.Leaves
import FilterSql.Proofs.Operands

/-! What reading a document as a filter loses. An integer beyond 64 bits with a sign becomes the
nearest double, and nothing else changes: two documents give one filter exactly when they are equal
after that rounding, and a comparison with such an integer binds the double. -/

namespace FilterSql

/-- The integer fits 64 bits with its sign. -/
def FitsSigned (value : Int) : Prop :=
  Int64.minValue.toInt ≤ value ∧ value ≤ Int64.maxValue.toInt

instance (value : Int) : Decidable (FitsSigned value) :=
  inferInstanceAs (Decidable (Int64.minValue.toInt ≤ value ∧ value ≤ Int64.maxValue.toInt))

def JsonNumber.rounded : JsonNumber → JsonNumber
  | .int value => if FitsSigned value then .int value else .float (Double.ofInt value)
  | .float value => .float value

def JsonNumber.integer? : JsonNumber → Option Int
  | .int value => some value
  | .float _ => none

namespace Json

mutual

/-- The document with its large integers replaced by the nearest doubles. -/
def rounded : Json → Json
  | .null => .null
  | .bool value => .bool value
  | .number value => .number value.rounded
  | .string value => .string value
  | .array items => .array (roundedItems items)
  | .object fields => .object (roundedFields fields)
termination_by structural document => document

def roundedItems : List Json → List Json
  | [] => []
  | item :: items => rounded item :: roundedItems items
termination_by structural items => items

def roundedFields : List (String × Json) → List (String × Json)
  | [] => []
  | (key, value) :: fields => (key, rounded value) :: roundedFields fields
termination_by structural fields => fields

end

mutual

/-- All integers in the document. -/
def integers : Json → List Int
  | .null => []
  | .bool _ => []
  | .number value => value.integer?.toList
  | .string _ => []
  | .array items => itemsIntegers items
  | .object fields => fieldsIntegers fields
termination_by structural document => document

def itemsIntegers : List Json → List Int
  | [] => []
  | item :: items => integers item ++ itemsIntegers items
termination_by structural items => items

def fieldsIntegers : List (String × Json) → List Int
  | [] => []
  | (_, value) :: fields => integers value ++ fieldsIntegers fields
termination_by structural fields => fields

end

end Json

/-! ### The way back -/

/-- The document that a scalar is read from. There is none for instants and bytes. -/
def Scalar.document : Scalar → Json
  | .null => .null
  | .bool value => .bool value
  | .int value => .int value.toInt
  | .float value => .number (.float value)
  | .text value => .string value
  | .instant _ => .null
  | .bytes _ => .null

namespace Filter

mutual

/-- The document that a filter is read from. -/
def document : Filter → Json
  | .scalar value => value.document
  | .list items => .array (itemsDocuments items)
  | .object entries => .object (entriesDocuments entries)
termination_by structural written => written

def itemsDocuments : List Filter → List Json
  | [] => []
  | item :: items => document item :: itemsDocuments items
termination_by structural items => items

def entriesDocuments : List (String × Filter) → List (String × Json)
  | [] => []
  | (key, written) :: entries => (key, document written) :: entriesDocuments entries
termination_by structural entries => entries

end

theorem toInt_ofInt_of_fitsSigned {value : Int} (h : FitsSigned value) :
    (Int64.ofInt value).toInt = value := by
  have hmin : Int64.minValue.toInt = -2 ^ 63 := by decide
  have hmax : Int64.maxValue.toInt = 2 ^ 63 - 1 := by decide
  obtain ⟨hlow, hhigh⟩ := h
  rw [hmin] at hlow
  rw [hmax] at hhigh
  exact Int64.toInt_ofInt_of_le hlow (by omega)

theorem ofNumber_int_of_fits {value : Int} (h : FitsSigned value) :
    ofNumber (.int value) = .int (Int64.ofInt value) :=
  if_pos h

theorem ofNumber_int_of_not_fits {value : Int} (h : ¬FitsSigned value) :
    ofNumber (.int value) = .float (Double.ofInt value) :=
  if_neg h

theorem document_ofNumber (value : JsonNumber) :
    (ofNumber value).document = .number value.rounded := by
  cases value with
  | float value => rfl
  | int value =>
      by_cases hfits : FitsSigned value
      · rw [ofNumber_int_of_fits hfits, JsonNumber.rounded, if_pos hfits, Scalar.document,
          toInt_ofInt_of_fitsSigned hfits]
        rfl
      · rw [ofNumber_int_of_not_fits hfits, JsonNumber.rounded, if_neg hfits, Scalar.document]

theorem ofNumber_rounded (value : JsonNumber) : ofNumber value.rounded = ofNumber value := by
  cases value with
  | float value => rfl
  | int value =>
      by_cases hfits : FitsSigned value
      · rw [JsonNumber.rounded, if_pos hfits]
      · rw [JsonNumber.rounded, if_neg hfits, ofNumber_int_of_not_fits hfits, ofNumber]

mutual

theorem document_ofJson : ∀ document : Json, (ofJson document).document = document.rounded
  | .null => rfl
  | .bool value => rfl
  | .number value => document_ofNumber value
  | .string value => rfl
  | .array items => by rw [ofJson, Filter.document, Json.rounded, itemsDocuments_ofJsonItems items]
  | .object fields => by
      rw [ofJson, Filter.document, Json.rounded, entriesDocuments_ofJsonFields fields]
termination_by structural document => document

theorem itemsDocuments_ofJsonItems : ∀ items : List Json,
    itemsDocuments (ofJsonItems items) = Json.roundedItems items
  | [] => rfl
  | item :: items => by
      rw [ofJsonItems, itemsDocuments, Json.roundedItems, document_ofJson item,
        itemsDocuments_ofJsonItems items]
termination_by structural items => items

theorem entriesDocuments_ofJsonFields : ∀ fields : List (String × Json),
    entriesDocuments (ofJsonFields fields) = Json.roundedFields fields
  | [] => rfl
  | (key, value) :: fields => by
      rw [ofJsonFields, entriesDocuments, Json.roundedFields, document_ofJson value,
        entriesDocuments_ofJsonFields fields]
termination_by structural fields => fields

end

mutual

theorem ofJson_rounded : ∀ document : Json, ofJson document.rounded = ofJson document
  | .null => rfl
  | .bool value => rfl
  | .number value => by rw [Json.rounded, ofJson, ofJson, ofNumber_rounded]
  | .string value => rfl
  | .array items => by rw [Json.rounded, ofJson, ofJson, ofJsonItems_rounded items]
  | .object fields => by rw [Json.rounded, ofJson, ofJson, ofJsonFields_rounded fields]
termination_by structural document => document

theorem ofJsonItems_rounded : ∀ items : List Json,
    ofJsonItems (Json.roundedItems items) = ofJsonItems items
  | [] => rfl
  | item :: items => by
      rw [Json.roundedItems, ofJsonItems, ofJsonItems, ofJson_rounded item,
        ofJsonItems_rounded items]
termination_by structural items => items

theorem ofJsonFields_rounded : ∀ fields : List (String × Json),
    ofJsonFields (Json.roundedFields fields) = ofJsonFields fields
  | [] => rfl
  | (key, value) :: fields => by
      rw [Json.roundedFields, ofJsonFields, ofJsonFields, ofJson_rounded value,
        ofJsonFields_rounded fields]
termination_by structural fields => fields

end

/-- Rounding is all that reading a document loses. -/
theorem ofJson_eq_iff {document other : Json} :
    ofJson document = ofJson other ↔ document.rounded = other.rounded := by
  constructor
  · intro h
    rw [← document_ofJson, ← document_ofJson, h]
  · intro h
    rw [← ofJson_rounded document, h, ofJson_rounded]

end Filter

/-! ### Documents that are kept -/

namespace Json

theorem number_rounded_eq_iff {value : JsonNumber} :
    value.rounded = value ↔ ∀ integer ∈ value.integer?, FitsSigned integer := by
  cases value with
  | float value => simp [JsonNumber.rounded, JsonNumber.integer?]
  | int value =>
      by_cases hfits : FitsSigned value
      · simp [JsonNumber.rounded, JsonNumber.integer?, hfits]
      · simp [JsonNumber.rounded, JsonNumber.integer?, hfits]

mutual

theorem rounded_eq_iff : ∀ document : Json,
    document.rounded = document ↔ ∀ integer ∈ document.integers, FitsSigned integer
  | .null => by simp [rounded, integers]
  | .bool value => by simp [rounded, integers]
  | .number value => by simpa [rounded, integers] using number_rounded_eq_iff
  | .string value => by simp [rounded, integers]
  | .array items => by simpa [rounded, integers] using roundedItems_eq_iff items
  | .object fields => by simpa [rounded, integers] using roundedFields_eq_iff fields
termination_by structural document => document

theorem roundedItems_eq_iff : ∀ items : List Json,
    roundedItems items = items ↔ ∀ integer ∈ itemsIntegers items, FitsSigned integer
  | [] => by simp [roundedItems, itemsIntegers]
  | item :: items => by
      rw [roundedItems, itemsIntegers, List.cons.injEq, rounded_eq_iff item,
        roundedItems_eq_iff items, List.forall_mem_append]
termination_by structural items => items

theorem roundedFields_eq_iff : ∀ fields : List (String × Json),
    roundedFields fields = fields ↔ ∀ integer ∈ fieldsIntegers fields, FitsSigned integer
  | [] => by simp [roundedFields, fieldsIntegers]
  | (key, value) :: fields => by
      rw [roundedFields, fieldsIntegers, List.cons.injEq, Prod.mk.injEq, rounded_eq_iff value,
        roundedFields_eq_iff fields, List.forall_mem_append]
      simp
termination_by structural fields => fields

end

end Json

/-! ### Comparisons -/

/-- The document compares what it stands beside with the integer. -/
inductive Json.Compares (value : Int) : Json → Prop where
  | bare : Compares value (.int value)
  | beside {operator : Operator} {token : String} (hoperator : operator.category = .comparison)
      (htoken : operator.IsToken token) : Compares value (.object [(token, .int value)])

theorem Json.Compares.exists_leaf {value : Int} {document : Json} (h : document.Compares value)
    (wildcards : Wildcards) (column : String) :
    ∃ test, Test.ofFilter wildcards column (Filter.ofJson document) = .ok test ∧
      ∀ name, test.leaves.flatMap (Leaf.argumentsBelow name) =
        [(name, .one (Filter.ofNumber (.int value)))] := by
  cases h with
  | bare =>
      refine ⟨.equals (Filter.ofNumber (.int value)), rfl, ?_⟩
      intro name
      simp [Test.leaves, Leaf.argumentsBelow, Operand.arguments]
  | @beside operator token hoperator htoken =>
      have hcheck : Check.ofEntry wildcards column
          (token, .scalar (Filter.ofNumber (.int value))) =
            .ok ⟨operator, .scalar (Filter.ofNumber (.int value))⟩ := by
        rw [Check.ofEntry, Operator.ofToken?_eq_some_iff.2 htoken]
        simp only [Operand.ofFilter, hoperator]
        rfl
      refine ⟨.every [⟨operator, .scalar (Filter.ofNumber (.int value))⟩], ?_, ?_⟩
      · show ([(token, Filter.scalar (Filter.ofNumber (.int value)))].mapM
          (Check.ofEntry wildcards column)).map Test.every = _
        rw [List.mapM_cons, hcheck]
        rfl
      · intro name
        simp [Test.leaves, Leaf.argumentsBelow, Operand.arguments, Position.suffix]

/-- A comparison is no list, so it stands beside a column and not beside a connective. -/
theorem Json.Compares.exists_entry {value : Int} {document : Json} (h : document.Compares value)
    {wildcards : Wildcards} {column : String} {entry : Entry}
    (hentry : Entry.ofPair wildcards (column, Filter.ofJson document) = .ok entry) :
    ∃ test, Test.ofFilter wildcards column (Filter.ofJson document) = .ok test ∧
      entry = .column column test := by
  have hmembers : ∀ connective members,
      Formula.ofMembers wildcards connective (Filter.ofJson document) ≠ .ok members := by
    intro connective members
    cases h <;> simp [Json.int, Filter.ofJson, Formula.ofMembers]
  obtain ⟨key, hkey, hentry⟩ := bind_eq_ok.1 hentry
  rcases EntryKey.ofText_eq_ok hkey with ⟨-, rfl⟩ | ⟨-, rfl⟩ | ⟨-, rfl⟩
  · obtain ⟨members, hread, -⟩ := map_eq_ok.1 hentry
    exact absurd hread (hmembers _ members)
  · obtain ⟨members, hread, -⟩ := map_eq_ok.1 hentry
    exact absurd hread (hmembers _ members)
  · obtain ⟨test, htest, rfl⟩ := map_eq_ok.1 hentry
    exact ⟨test, htest, rfl⟩

theorem bindings_of_compares {wildcards : Wildcards} {scope : Scope} {space column : String}
    {value : Int} {document : Json} {restriction : Restriction} (hvalue : document.Compares value)
    (h : (Filter.ofJson (.object [(column, document)])).restriction wildcards scope space =
      .ok restriction) :
    restriction.bindings.entries = [(space ++ "0", .one (Filter.ofNumber (.int value)))] := by
  obtain ⟨formula, hformula, hrestriction⟩ := bind_eq_ok.1 h
  obtain ⟨entries, hentries, rfl⟩ := map_eq_ok.1 hformula
  rw [Formula.ofEntries_eq_mapM, mapM_eq_ok] at hentries
  obtain ⟨entry, rest, hentry, hrest, rfl⟩ := List.forall₂_cons_left_iff.1 hentries
  obtain rfl := List.forall₂_nil_left_iff.1 hrest
  obtain ⟨test, htest, rfl⟩ := hvalue.exists_entry hentry
  obtain ⟨test', htest', hleaves⟩ := hvalue.exists_leaf wildcards column
  obtain rfl := Except.ok.inj (htest.symm.trans htest')
  have hformula : (Formula.conjunction [.column column test]).leaves =
      test.leaves.map (Leaf.below ⟨0, 1⟩) := by
    simp [Formula.leaves, Formula.entriesLeaves, Formula.entryLeaves]
  rw [(Formula.bindings_eq_leaves hrestriction).1, hformula, List.flatMap_map]
  exact hleaves (space ++ toString 0)

namespace Filter

/-- Reading a document as a filter loses exactly the rounding of the integers that do not fit 64
bits with a sign. A comparison with an integer binds that integer if it fits, and otherwise the
nearest double. -/
theorem ofJson_loses_rounding (document other : Json) :
    (ofJson document = ofJson other ↔ document.rounded = other.rounded) ∧
    (document.rounded = document ↔ ∀ integer ∈ document.integers, FitsSigned integer) ∧
    ∀ {wildcards : Wildcards} {scope : Scope} {space column : String} {value : Int}
      {comparison : Json} {restriction : Restriction}, comparison.Compares value →
      (ofJson (.object [(column, comparison)])).restriction wildcards scope space =
        .ok restriction →
      ∃ bound, restriction.bindings.entries = [(space ++ "0", .one bound)] ∧
        (FitsSigned value → ∃ integer : Int64, bound = .int integer ∧ integer.toInt = value) ∧
        (¬FitsSigned value → bound = .float (Double.ofInt value)) := by
  refine ⟨ofJson_eq_iff, document.rounded_eq_iff, ?_⟩
  intro wildcards scope space column value comparison restriction hvalue hrestriction
  refine ⟨_, bindings_of_compares hvalue hrestriction, ?_, ?_⟩
  · intro hfits
    exact ⟨Int64.ofInt value, ofNumber_int_of_fits hfits, toInt_ofInt_of_fitsSigned hfits⟩
  · intro hfits
    exact ofNumber_int_of_not_fits hfits

/-- A comparison with an integer between two doubles. -/
theorem ofJson_loses_rounding_large :
    ∃ restriction,
      (ofJson (.object [("id", .object [("$gt", .int 9223372036854775809)])])).restriction
        .anywhere (Scope.ofMain "t") "" = .ok restriction ∧
      restriction.bindings.entries = [("0", .one (.float ⟨0x43E0000000000000⟩))] := by
  -- the document is read for any bound, so that the double is computed only once
  have hread : ∀ bound : Scalar,
      (Filter.object [("id", .object [("$gt", .scalar bound)])]).restriction .anywhere
        (Scope.ofMain "t") "" =
      .ok ⟨.and, [.leaf (.compare (.path "t" ["id"]) .gt "0" bound)]⟩ := fun bound => by cbv
  have hrestriction := hread (ofNumber (.int 9223372036854775809))
  have htoken : Operator.gt.IsToken "$gt" := .inl rfl
  obtain ⟨bound, hentries, -, hfloat⟩ := (ofJson_loses_rounding .null .null).2.2
    (.beside rfl htoken) hrestriction
  obtain rfl := hfloat (by decide)
  have hdouble : Double.ofInt 9223372036854775809 = ⟨0x43E0000000000000⟩ := by decide +kernel
  rw [hdouble] at hentries
  exact ⟨_, hrestriction, hentries⟩

/-- Two identifiers beyond the range of signed integers are read as one filter. -/
theorem ofJson_eq_of_different :
    let document := Json.object [("id", .int 9223372036854775808)]
    let other := Json.object [("id", .int 9223372036854775809)]
    document ≠ other ∧ ofJson document = ofJson other ∧
      ∃ restriction, (ofJson other).standalone "t" = .ok restriction ∧
        restriction.bindings.entries = [("0", .one (.float ⟨0x43E0000000000000⟩))] := by
  intro document other
  have hread : ∀ bound : Scalar,
      (Filter.object [("id", .scalar bound)]).standalone "t" =
        .ok ⟨.and, [.leaf (.compare (.path "t" ["id"]) .eq "0" bound)]⟩ := fun bound => by cbv
  have hbound : ofNumber (.int 9223372036854775808) = .float ⟨0x43E0000000000000⟩ := by
    decide +kernel
  have hbound' : ofNumber (.int 9223372036854775809) = .float ⟨0x43E0000000000000⟩ := by
    decide +kernel
  have hother : ofJson other = .object [("id", .scalar (.float ⟨0x43E0000000000000⟩))] :=
    congrArg (fun bound => Filter.object [("id", .scalar bound)]) hbound'
  have hdocument : ofJson document = .object [("id", .scalar (.float ⟨0x43E0000000000000⟩))] :=
    congrArg (fun bound => Filter.object [("id", .scalar bound)]) hbound
  have hne : document ≠ other := by simp [document, other, Json.int]
  have hstandalone := hread (.float ⟨0x43E0000000000000⟩)
  rw [← hother] at hstandalone
  exact ⟨hne, hdocument.trans hother.symm, _, hstandalone, rfl⟩

end Filter

end FilterSql
