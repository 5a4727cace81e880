import StepGraph.Wire.Document
import StepGraph.Text.Quoted

/-!
# Faults of decoding

A document that does not describe what is asked for has a first fault, and a fault lies at a
location inside the document. A text that cannot be read at all has no location.
-/

namespace StepGraph.Wire

/-- The way from a container to one of its parts. -/
inductive Part where
  | member (name : String)
  | item (index : Nat)
  /-- Any member of a mapping whose keys are free. -/
  | entry
  deriving DecidableEq, Repr

/-- The way from the whole document to a part, innermost step first. -/
abbrev Location := List Part

/-- The text of one step. -/
def Part.text : Part → String
  | .member name => "." ++ name
  | .item index => "[" ++ toString index ++ "]"
  | .entry => "[...]"

/-- The end of a message that says where the fault lies; the whole document needs no place. -/
def Location.ending : Location → String
  | [] => ""
  | place => " - at `$" ++ String.join (place.reverse.map Part.text) ++ "`"

/-- Why a document cannot be decoded. -/
inductive Fault where
  /-- The text breaks off or goes on after its end. -/
  | unreadable
  /-- A part of another kind than expected. -/
  | unexpected (expected found : String) (place : Location)
  /-- A member that the object does not have. -/
  | unknownMember (name : String) (place : Location)
  /-- A member that must be there. -/
  | missingMember (name : String) (place : Location)
  /-- A text that is none of the allowed ones. -/
  | unknownChoice (text : String) (place : Location)
  /-- A number that no double can hold. -/
  | outOfRange (place : Location)
  deriving DecidableEq, Repr

/-- The wording of a fault; an unreadable text has none of its own. -/
def Fault.message? : Fault → Option String
  | .unreadable => none
  | .unexpected expected found place =>
    some ("Expected `" ++ expected ++ "`, got `" ++ found ++ "`" ++ place.ending)
  | .unknownMember name place =>
    some ("Object contains unknown field `" ++ name ++ "`" ++ place.ending)
  | .missingMember name place =>
    some ("Object missing required field `" ++ name ++ "`" ++ place.ending)
  | .unknownChoice text place => some ("Invalid enum value " ++ Text.quoted text ++ place.ending)
  | .outOfRange place => some ("Number out of range" ++ place.ending)

end StepGraph.Wire
