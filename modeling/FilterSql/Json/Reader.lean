import FilterSql.Assoc
import FilterSql.Json.Token

/-!
Reading JSON documents. The reader takes one token at a time and keeps a stack of the containers
that are still open, so its work is bounded by the length of the text. Nesting is limited, and a
key that is repeated in an object keeps its first position and its last value.
-/

namespace FilterSql

namespace Json

/-- A container whose closing bracket has not come yet. Items are kept in reverse. -/
inductive Frame where
  | array (items : List Json)
  | object (fields : List (String × Json)) (key : String)

/-- What has been read, and with it what may come next. -/
inductive ReadState where
  /-- A value must come. -/
  | value (frames : List Frame)
  /-- The first item of an array or its end. -/
  | firstItem (frames : List Frame)
  /-- The first key of an object or its end. -/
  | firstKey (frames : List Frame)
  | nextKey (fields : List (String × Json)) (frames : List Frame)
  | colon (fields : List (String × Json)) (key : String) (frames : List Frame)
  /-- The innermost container has just received a value. -/
  | afterItem (items : List Json) (frames : List Frame)
  | afterField (fields : List (String × Json)) (frames : List Frame)
  | finished (value : Json)

def maxDepth : Nat := 127

namespace ReadState

/-- Hands a complete value to the innermost open container. -/
def receive (document : Json) : List Frame → ReadState
  | [] => .finished document
  | .array items :: rest => .afterItem (document :: items) rest
  | .object fields key :: rest => .afterField (Assoc.insert key document fields) rest

def startValue? (frames : List Frame) : JsonToken → Option ReadState
  | .text content => some (receive (.string content) frames)
  | .scalar document => some (receive document frames)
  | .openArray => if frames.length < maxDepth then some (.firstItem frames) else none
  | .openObject => if frames.length < maxDepth then some (.firstKey frames) else none
  | _ => none

def step? : ReadState → JsonToken → Option ReadState
  | .value frames, token => startValue? frames token
  | .firstItem frames, .closeArray => some (receive (.array []) frames)
  | .firstItem frames, token => startValue? (.array [] :: frames) token
  | .firstKey frames, .closeObject => some (receive (.object []) frames)
  | .firstKey frames, .text key => some (.colon [] key frames)
  | .nextKey fields frames, .text key => some (.colon fields key frames)
  | .colon fields key frames, .colon => some (.value (.object fields key :: frames))
  | .afterItem items frames, .comma => some (.value (.array items :: frames))
  | .afterItem items frames, .closeArray => some (receive (.array items.reverse) frames)
  | .afterField fields frames, .comma => some (.nextKey fields frames)
  | .afterField fields frames, .closeObject => some (receive (.object fields) frames)
  | _, _ => none

end ReadState

/-- The document that a text holds, if the whole text is one document. -/
def parse? (text : String) : Option Json :=
  (JsonToken.scan? text.toList).bind fun tokens =>
    match tokens.foldlM ReadState.step? (.value []) with
    | some (.finished value) => some value
    | _ => none

end Json

end FilterSql
