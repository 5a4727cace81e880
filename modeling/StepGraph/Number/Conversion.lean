import StepGraph.Number.Reading
import StepGraph.Text.Quoted

/-!
# Texts converted to numbers

A text that is expected to write a number either does or is quoted in the complaint.
-/

namespace StepGraph.Number

/-- Why a text is not converted. -/
inductive ConversionFault where
  /-- A text that writes no integer. -/
  | integer (text : String)
  /-- A text that writes no decimal number. -/
  | decimal (text : String)
  deriving DecidableEq, Repr

/-- The longest quotation of a text that writes no integer. -/
def quotationLimit : Nat := 200

/-- The wording of a fault; a long text that writes no integer is quoted in part. -/
def ConversionFault.message : ConversionFault → String
  | .integer text =>
    "invalid literal for int() with base 10: "
      ++ String.ofList ((Text.quoted text).toList.take quotationLimit)
  | .decimal text => "could not convert string to float: " ++ Text.quoted text

/-- The integer that a text writes. -/
def integerOf (text : String) : Except ConversionFault Int :=
  match Reading.integer? text with
  | some n => .ok n
  | none => .error (.integer text)

/-- The double that a text writes. -/
def decimalOf (text : String) : Except ConversionFault Float :=
  match Reading.decimal? text with
  | some x => .ok x
  | none => .error (.decimal text)

end StepGraph.Number
