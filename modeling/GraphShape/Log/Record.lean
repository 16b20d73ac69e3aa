import GraphShape.Log.Level

/-!
# Log records

A record has a level, a source, a message and fields. Its line is what a log shows of it after the
time.
-/

namespace GraphShape.Log

structure Record where
  level : Level
  /-- The part of the program that it comes from, as filters name it. -/
  source : String
  message : String
  /-- Names with the text of their values, in order. -/
  fields : List (String × String)
  deriving DecidableEq, Repr

/-- The line of a record: level, message and fields, with a blank between them. -/
def Record.line (r : Record) : String :=
  r.level.capitals ++ " " ++ r.message ++
    String.join (r.fields.map (fun (name, value) => " " ++ name ++ "=" ++ value))

/-- The names that a filter may ask a record for. -/
def Record.fieldNames (r : Record) : List String := "message" :: r.fields.map Prod.fst

end GraphShape.Log
