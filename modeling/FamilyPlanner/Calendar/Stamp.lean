import FamilyPlanner.Calendar.Grid

/-!
# Texts of times

What `time.Parse` takes for a clock, a date with a clock, and an offset.
-/

namespace FamilyPlanner.Calendar

open FamilyPlanner.Foundation FamilyPlanner.Foundation.Clock

/-- Go's `getnum`: two digits or, unless `fixed`, one. -/
def getnum (fixed : Bool) : List Char → Option (Int × List Char)
  | [] => none
  | a :: rest =>
      match rest with
      | b :: rest' =>
          if a.isDigit ∧ b.isDigit then (digits [a, b]).map (·, rest')
          else if a.isDigit ∧ fixed = false then (digits [a]).map (·, rest)
          else none
      | [] => if a.isDigit ∧ fixed = false then (digits [a]).map (·, rest) else none

/-- A fraction of a second is taken whether or not the layout has one, to nanoseconds. -/
def fraction : List Char → Int × List Char
  | p :: c :: rest =>
      if (p = '.' ∨ p = ',') ∧ c.isDigit then
        let ds := ((c :: rest).takeWhile Char.isDigit).take 9
        ((digits ds).getD 0 * 10 ^ (9 - ds.length), (c :: rest).dropWhile Char.isDigit)
      else (0, p :: c :: rest)
  | cs => (0, cs)

/-- The `15:04:05` of a layout, and what is left of the text. -/
def parseClock (cs : List Char) : Option (Int × List Char) :=
  match getnum false cs with
  | some (hh, ':' :: cs) =>
      match getnum true cs with
      | some (mm, ':' :: cs) =>
          match getnum true cs with
          | some (ss, cs) =>
              if hh < 24 ∧ mm < 60 ∧ ss < 60 then
                some (hh * hour + mm * minute + ss * second + (fraction cs).1, (fraction cs).2)
              else none
          | none => none
      | _ => none
  | _ => none

def parseStamp : List Char → Option (Int × List Char)
  | a :: b :: c :: d :: '-' :: e :: f :: '-' :: g :: h :: 'T' :: rest =>
      match civilDate [a, b, c, d] [e, f] [g, h], parseClock rest with
      | some date, some (t, rest) => some (date.number * day + t, rest)
      | _, _ => none
  | _ => none

/-- The layout `2006-01-02`. -/
def parseDay (s : String) : Option Date :=
  match s.toList with
  | [a, b, c, d, '-', e, f, '-', g, h] => civilDate [a, b, c, d] [e, f] [g, h]
  | _ => none

/-- The layout `15:04`, with the hour and the minute. -/
def parseTimeOfDay (s : String) : Option (Int × Int) :=
  match getnum false s.toList with
  | some (hh, ':' :: cs) =>
      match getnum true cs with
      | some (mm, []) => if hh < 24 ∧ mm < 60 then some (hh, mm) else none
      | _ => none
  | _ => none

/-- The `Z07:00` of a layout. -/
def zoneOffset : List Char → Option Int
  | ['Z'] => some 0
  | [sign, a, b, ':', c, d] =>
      match digits [a, b], digits [c, d] with
      | some hh, some mm =>
          if 24 < hh ∨ 60 < mm then none
          else if sign = '+' then some (hh * hour + mm * minute)
          else if sign = '-' then some (-(hh * hour + mm * minute))
          else none
      | _, _ => none
  | _ => none

def parseDateTime (s : String) : Option Int :=
  match parseStamp s.toList with
  | some (t, []) => some t
  | _ => none

def parseRFC3339 (s : String) : Option Int :=
  match parseStamp s.toList with
  | some (t, rest) => (zoneOffset rest).map fun offset => t - offset
  | none => none

theorem parseStamp_midnight {a b c d e f g h : Char} {date : Date}
    (hdate : civilDate [a, b, c, d] [e, f] [g, h] = some date) :
    parseStamp (a :: b :: c :: d :: '-' :: e :: f :: '-' :: g :: h ::
      "T00:00:00.0000000".toList) = some (date.number * day, []) := by
  have hclock : parseClock "00:00:00.0000000".toList = some (0, []) := by decide
  have htext : "T00:00:00.0000000".toList = 'T' :: "00:00:00.0000000".toList := by decide
  rw [htext]
  simp only [parseStamp, hdate, hclock, Int.add_zero]

end FamilyPlanner.Calendar
