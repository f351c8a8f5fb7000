import FilterSql.Finder
import FilterSql.Json.Reader
import FilterSql.Proofs.Alphabet
import FilterSql.Proofs.Independence
import FilterSql.Proofs.Meaning
import FilterSql.Proofs.Leaves
import FilterSql.Proofs.Findings
import FilterSql.Proofs.Merging
import FilterSql.Proofs.Checks
import FilterSql.Proofs.Lowering
import FilterSql.Proofs.Validity
import FilterSql.Proofs.Rewriting
import FilterSql.Proofs.Names
import FilterSql.Proofs.Ownership
import FilterSql.Proofs.Qualification
import FilterSql.Proofs.Suitability
import FilterSql.Proofs.Acceptance
import FilterSql.Proofs.Growth
import FilterSql.Proofs.Standalone
import FilterSql.Proofs.Counting
import FilterSql.Proofs.Ordering
import FilterSql.Proofs.FirstRow
import FilterSql.Proofs.Conversion
import FilterSql.Proofs.KeyOrder
import FilterSql.Proofs.Parentheses
import FilterSql.Proofs.Grouping
import FilterSql.Proofs.Patterns
import FilterSql.Proofs.Spaces
import FilterSql.Proofs.Identifiers
import FilterSql.Proofs.Dialects
import FilterSql.Proofs.Resolution
import FilterSql.Proofs.Prefixes
import FilterSql.Proofs.Tables
import FilterSql.Proofs.Declarations
import FilterSql.Proofs.Calls
