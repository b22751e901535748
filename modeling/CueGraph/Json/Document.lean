import CueGraph.Json.Token

/-!
# JSON texts

`Json.read?` is the value of a JSON text. The tokens are read one by one; what is open around the
present place is kept as a stack of frames. A name that occurs again in an object changes the value
and not the place of the field.
-/

namespace CueGraph.Json

/-- A list or an object that is open: the items so far in reverse, or the fields so far and the name
of the field that is being read. -/
inductive Frame where
  | items (read : List Value)
  | field (read : Fields) (key : String)

/-- What may follow, inside the frames that are open. -/
inductive Reading where
  | value (frames : List Frame)
  /-- The first item of a list or its end. -/
  | firstItem (frames : List Frame)
  /-- The first name of an object or its end. -/
  | firstKey (frames : List Frame)
  /-- The next name of an object. -/
  | key (read : Fields) (frames : List Frame)
  /-- The colon after a name. -/
  | colon (read : Fields) (key : String) (frames : List Frame)
  /-- What follows a complete value. -/
  | after (v : Value) (frames : List Frame)

/-- Reads a token where a value must stand. -/
def readValue? (frames : List Frame) : Token → Option Reading
  | .str s => some (.after (.str s) frames)
  | .word v => some (.after v frames)
  | .openList => some (.firstItem frames)
  | .openObject => some (.firstKey frames)
  | _ => none

def Reading.next? : Reading → Token → Option Reading
  | .value frames, token => readValue? frames token
  | .firstItem frames, .closeList => some (.after (.list []) frames)
  | .firstItem frames, token => readValue? (.items [] :: frames) token
  | .firstKey frames, .closeObject => some (.after (.object []) frames)
  | .firstKey frames, .str name => some (.colon [] name frames)
  | .key read frames, .str name => some (.colon read name frames)
  | .colon read name frames, .colon => some (.value (.field read name :: frames))
  | .after v (.items read :: frames), .comma => some (.value (.items (v :: read) :: frames))
  | .after v (.items read :: frames), .closeList => some (.after (.list (v :: read).reverse) frames)
  | .after v (.field read name :: frames), .comma => some (.key (Fields.insert name v read) frames)
  | .after v (.field read name :: frames), .closeObject =>
    some (.after (.object (Fields.insert name v read)) frames)
  | _, _ => none

/-- The value of a text, when it is one JSON value with nothing around it but white space. -/
def read? (text : String) : Option Value := do
  let tokens ← tokens? text
  match ← tokens.foldlM Reading.next? (.value []) with
  | .after v [] => some v
  | _ => none

end CueGraph.Json
