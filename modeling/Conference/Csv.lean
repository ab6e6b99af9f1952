/-!
# Separated values

Records of fields as text, one record a line. A field that holds a separator, a quote or a line
break is put in quotes, and a quote within it is written twice.
-/

namespace Conference.Csv

def separator : Char := ';'

/-- The characters for which a field needs quotes. -/
def isSpecial (c : Char) : Bool := c == separator || c == '"' || c == '\r' || c == '\n'

/-- The characters of a field with each quote doubled. -/
def doubled : List Char → List Char
  | [] => []
  | c :: rest => if c = '"' then '"' :: '"' :: doubled rest else c :: doubled rest

def field (text : String) : String :=
  let cs := text.toList
  if cs.any isSpecial then String.ofList ('"' :: doubled cs ++ ['"']) else text

def record (fields : List String) : String := ";".intercalate (fields.map field) ++ "\n"

def render (records : List (List String)) : String := "".intercalate (records.map record)

end Conference.Csv
