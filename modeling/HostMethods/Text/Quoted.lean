/-!
# Quoted text

Diagnostic texts show a string between double quotes, with quotes, backslashes and control
characters escaped, so that the text stays on one line and its end is never in doubt.
-/

namespace HostMethods.Text

/-- The written form of one character between quotes. -/
def escapeChar (c : Char) : String :=
  if c = '"' then "\\\""
  else if c = '\\' then "\\\\"
  else if c = '\t' then "\\t"
  else if c = '\n' then "\\n"
  else if c = '\r' then "\\r"
  else if c.toNat = 0 then "\\0"
  else if c.toNat < 0x20 || c.toNat = 0x7F then
    "\\u\x7b" ++ String.ofList (Nat.toDigits 16 c.toNat) ++ "\x7d"
  else String.singleton c

/-- A text between double quotes. Control characters of ASCII are escaped; every character
outside ASCII stands for itself, whether it can be printed or not. -/
def quoted (s : String) : String :=
  "\"" ++ String.join (s.toList.map escapeChar) ++ "\""

/-- Items between square brackets, separated by commas. -/
def bracketed (items : List String) : String :=
  "[" ++ String.intercalate ", " items ++ "]"

/-- A named record with its fields in order, for diagnostics. -/
def record (name : String) (fields : List (String × String)) : String :=
  name ++ " \x7b " ++ String.intercalate ", " (fields.map fun (k, v) ↦ k ++ ": " ++ v) ++ " \x7d"

/-- A truth value for diagnostics. -/
def truth (b : Bool) : String :=
  if b then "true" else "false"

/-- An optional value for diagnostics. -/
def optional : Option String → String
  | none => "None"
  | some s => "Some(" ++ s ++ ")"

end HostMethods.Text
