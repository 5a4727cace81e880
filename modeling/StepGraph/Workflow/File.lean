import StepGraph.Json.Reader
import StepGraph.Workflow.Reading
import StepGraph.Yaml.Reader

/-!
# Workflow files

The name of a file tells its format. A JSON text is checked while it is read, so a fault of the
workflow before a fault of the text is the one reported; a YAML text is read as a whole first.
-/

namespace StepGraph

/-- The ending of a file's name from its last dot; a dot at either end of the name starts none. -/
def fileEnding (name : String) : String :=
  let cs := name.toList
  let ending := (cs.reverse.takeWhile (· != '.')).reverse
  if ending.isEmpty || cs.length ≤ ending.length + 1 then ""
  else String.ofList ('.' :: ending)

/-- Why a file yields no workflow. -/
inductive FileFault where
  /-- An ending of no known format. -/
  | unsupported (ending : String)
  /-- A content that describes no workflow. -/
  | content (fault : Wire.Fault)
  deriving DecidableEq, Repr

/-- The wording of a fault of a file. -/
def FileFault.message? : FileFault → Option String
  | .unsupported ending => some ("Unsupported workflow file type: " ++ Text.quoted ending)
  | .content fault => fault.message?

/-- The workflow that a JSON text describes; nothing may follow the document. -/
def Workflow.ofJson (content : String) : Except Wire.Fault Workflow := do
  let reading := Json.read content
  let workflow ← Workflow.ofDocument reading.document
  if reading.complete then return workflow else throw .unreadable

/-- The workflow that a YAML text describes. -/
def Workflow.ofYaml (content : String) : Except Wire.Fault Workflow :=
  Workflow.ofDocument (Yaml.read content)

/-- The workflow in a file of some name and content. -/
def Workflow.ofFile (name content : String) : Except FileFault Workflow :=
  let ending := fileEnding name
  let format := ending.toLower
  if format == ".json" then (Workflow.ofJson content).mapError .content
  else if format == ".yaml" || format == ".yml" then (Workflow.ofYaml content).mapError .content
  else .error (.unsupported ending)

end StepGraph
