import TreeCheck.Timestamp

/-!
Dates and times of day as plain scalars write them: `2001-12-14`, `2001-12-14t21:59:43.10-05:00`
and `2001-12-14 21:59:43.10`. Only existing dates count.
-/

namespace TreeCheck.Yaml

def isTimestamp (t : Text) : Bool :=
  match Timestamp.date? false t with
  | none => false
  | some [] => true
  | some (separator :: rest) =>
    if separator == 0x54 || separator == 0x74 then
      (Timestamp.clock? false rest).any Timestamp.isZone
    else if separator == 0x20 then
      (Timestamp.clock? false (rest.dropWhile fun b => b == 0x20)).any List.isEmpty
    else false

end TreeCheck.Yaml
