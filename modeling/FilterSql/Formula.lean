import FilterSql.Operator
import FilterSql.Scalar

/-!
Checked filters. A formula is a conjunction of entries or a disjunction of formulas; an entry tests
one column or groups formulas under a connective. Every ambiguity of the written filter is settled
here, and each operator carries its operand.
-/

namespace FilterSql

inductive Operand where
  | scalar (value : Scalar)
  | list (values : List Scalar)
  | range (low high : Scalar)
  | column (name : String)
  deriving DecidableEq

structure Check where
  operator : Operator
  operand : Operand
  deriving DecidableEq

inductive Test where
  | equals (value : Scalar)
  | every (checks : List Check)
  deriving DecidableEq

mutual

inductive Formula where
  | conjunction (entries : List Entry)
  | disjunction (branches : List Formula)

inductive Entry where
  | column (name : String) (test : Test)
  | group (connective : Connective) (members : List Formula)

end

namespace Operand

def diagnostic : Operand → String
  | .scalar value => "Value(" ++ value.diagnostic ++ ")"
  | .list values => "List(" ++ Scalar.listDiagnostic values ++ ")"
  | .range low high => "Range(" ++ low.diagnostic ++ ", " ++ high.diagnostic ++ ")"
  | .column name => "Column(" ++ Text.quoted name ++ ")"

def toJson (zone : Instant.Zone) : Operand → Json
  | .scalar value => .object [("value", value.toJson zone)]
  | .list values => .object [("list", .array (values.map (Scalar.toJson zone)))]
  | .range low high => .object [("range", .array [low.toJson zone, high.toJson zone])]
  | .column name => .object [("column", .string name)]

end Operand

def Check.toJson (zone : Instant.Zone) (check : Check) : Json :=
  .object [("operator", .string check.operator.name), ("operand", check.operand.toJson zone)]

def Test.toJson (zone : Instant.Zone) : Test → Json
  | .equals value => .object [("equals", value.toJson zone)]
  | .every checks => .object [("operators", .array (checks.map (Check.toJson zone)))]

namespace Formula

/-- The number of parts at the root. -/
def length : Formula → Nat
  | .conjunction entries => entries.length
  | .disjunction branches => branches.length

def isEmpty (formula : Formula) : Bool := formula.length = 0

mutual

def toJson (zone : Instant.Zone) : Formula → Json
  | .conjunction entries => .object [("conditions", .array (entriesToJson zone entries))]
  | .disjunction branches => .object [("alternatives", .array (branchesToJson zone branches))]
termination_by structural formula => formula

def branchesToJson (zone : Instant.Zone) : List Formula → List Json
  | [] => []
  | branch :: branches => toJson zone branch :: branchesToJson zone branches
termination_by structural branches => branches

def entryToJson (zone : Instant.Zone) : Entry → Json
  | .column name test =>
    .object [("column", .object [("column", .string name), ("predicate", test.toJson zone)])]
  | .group connective members =>
    .object [("group", .object
      [("kind", .string connective.name), ("children", .array (branchesToJson zone members))])]
termination_by structural entry => entry

def entriesToJson (zone : Instant.Zone) : List Entry → List Json
  | [] => []
  | entry :: entries => entryToJson zone entry :: entriesToJson zone entries
termination_by structural entries => entries

end

end Formula

end FilterSql
