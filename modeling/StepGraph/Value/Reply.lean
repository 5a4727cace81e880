import StepGraph.Value.Entries
import StepGraph.Value.Text

/-!
# What a block's reply means

A block may reply with an outcome record, with a mapping shaped like one, or with plain data.
-/

namespace StepGraph.BlockResult

/-- The keys by which a mapping is taken for an outcome. -/
def keys : List String := ["hasError", "message", "data"]

/-- A value under a key, null if there is none. -/
def part (entries : List (String × Value)) (key : String) : Value :=
  (Entries.get? entries key).getD .null

/-- A message shown as text, unless there is none. -/
def shownMessage : Value → Value
  | .null => .null
  | v => .text v.display

/-- The outcome that a mapping describes. -/
def ofEntries (entries : List (String × Value)) : BlockResult where
  hasError := .bool (part entries "hasError").isPresent
  message := shownMessage (part entries "message")
  data := part entries "data"

/-- The outcome in a record's fields, which are taken as they are. -/
def ofFields (fields : List (String × Value)) : BlockResult where
  hasError := part fields "has_error"
  message := part fields "message"
  data := part fields "data"

/-- The outcome that a reply means: a mapping with at least one of the keys is read key by key,
and any other data is a success. -/
def ofValue : Value → BlockResult
  | .record .blockResult fields => ofFields fields
  | .mapping entries =>
    if keys.any (Entries.hasKey entries) then ofEntries entries
    else { data := .mapping entries }
  | v => { data := v }

/-- Whether the outcome is a success. -/
def succeeded (r : BlockResult) : Bool := !r.hasError.isPresent

/-- The outcome as it is recorded. -/
def entries (r : BlockResult) : List (String × Value) :=
  [("hasError", r.hasError), ("message", r.message), ("data", r.data)]

end StepGraph.BlockResult
