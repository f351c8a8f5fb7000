import FilterSql.Fault

/-!
Reading a request document. Each recognized key is read on its own and the first faulty one in
document order is reported; unknown keys are ignored. A null filter, join condition or join alias
counts as absent.
-/

namespace FilterSql

/-- Directions are `asc` and `desc` in small or capital letters, or `1` and `-1` as number or
text. -/
def Direction.ofJson (column : String) (value : Json) : Except RequestFault Direction :=
  match value with
  | .string "asc" | .string "ASC" | .string "1" => .ok .ascending
  | .string "desc" | .string "DESC" | .string "-1" => .ok .descending
  | .number (.int 1) => .ok .ascending
  | .number (.int (-1)) => .ok .descending
  | _ => .error (.direction column value)

def JoinKind.ofText (text : String) : Except RequestFault JoinKind :=
  match JoinKind.ofText? text with
  | some kind => .ok kind
  | none => .error (.unknownJoinType text)

/-- A filter document, where null stands for no filter. -/
def Filter.ofJson? : Json → Option Filter
  | .null => none
  | document => some (Filter.ofJson document)

namespace JoinRequest

def requiredText (fields : List (String × Json)) (key : String) (fault : DocumentFault) :
    Except RequestFault String :=
  match fields.lookup key with
  | some (.string text) => .ok text
  | _ => .error (.document fault)

def aliasOfJson? : Option Json → Except RequestFault (Option String)
  | none | some .null => .ok none
  | some (.string aliasName) => .ok (some aliasName)
  | some other => .error (.document (.aliasNotString other.kind))

def ofFields (fields : List (String × Json)) : Except RequestFault JoinRequest := do
  let table ← requiredText fields "table" .joinWithoutTable
  let kind ← JoinKind.ofText (← requiredText fields "type" .joinWithoutType)
  let aliasName ← aliasOfJson? (fields.lookup "alias")
  return ⟨kind, table, aliasName, (fields.lookup "condition").bind Filter.ofJson?⟩

def ofJson : Json → Except RequestFault JoinRequest
  | .object fields => ofFields fields
  | other => .error (.document (.joinNotObject other.kind))

end JoinRequest

namespace Request

def itemsOfJson (key : Key) : Json → Except RequestFault (List Json)
  | .array items => .ok items
  | other => .error (.document (.notArray key other.kind))

def entryOfJson (key : Key) : Json → Except RequestFault String
  | .string text => .ok text
  | other => .error (.document (.entryNotString key other.kind))

def namesOfJson (key : Key) (value : Json) : Except RequestFault (List String) := do
  (← itemsOfJson key value).mapM (entryOfJson key)

def orderOfJson : Json → Except RequestFault (List OrderTerm)
  | .object fields =>
    fields.mapM fun (column, value) => (Direction.ofJson column value).map (OrderTerm.mk column)
  | other => .error (.document (.orderNotObject other.kind))

def joinsOfJson (value : Json) : Except RequestFault (List JoinRequest) := do
  (← itemsOfJson .joins value).mapM JoinRequest.ofJson

def boundOfJson (key : Key) (value : Json) : Except RequestFault UInt64 :=
  match value.natural? with
  | some bound => .ok bound
  | none => .error (.bound key value)

/-- Adds what one key of the document says. -/
def withField (request : Request) (field : String × Json) : Except RequestFault Request :=
  let value := field.2
  match Key.ofText? field.1 with
  | none => .ok request
  | some .select =>
    (namesOfJson .select value).map fun columns => { request with select := columns }
  | some .filter => .ok { request with filter := Filter.ofJson? value }
  | some .order => (orderOfJson value).map fun order => { request with order := order }
  | some .group =>
    (namesOfJson .group value).map fun columns => { request with group := some columns }
  | some .joins => (joinsOfJson value).map fun joins => { request with joins := joins }
  | some .take =>
    (boundOfJson .take value).map fun take =>
      { request with window := { request.window with take := some take } }
  | some .skip =>
    (boundOfJson .skip value).map fun skip =>
      { request with window := { request.window with skip := some skip } }

def ofJson : Json → Except RequestFault Request
  | .object fields => do
    let request ← fields.foldlM withField empty
    if request.select.isEmpty then .error .emptySelect else return request
  | other => .error (.document (.notObject other.kind))

end Request

end FilterSql
