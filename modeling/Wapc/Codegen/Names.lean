import Mathlib.Data.List.DropRight

/-!
# Names in generated code

Fields, functions and argument structs of the generated code are named after the names of
a WIDL definition, in another case. Names have ASCII characters only, which is where the
character classes of the regular expressions and those of Lean agree.
-/

namespace Wapc.Codegen

/-- The mark that separates the parts of a name while it is taken apart. -/
def nul : Char := Char.ofNat 0

/-- `/([a-z0-9])([A-Z])/g`, replaced by `$1\0$2`. -/
def splitLowerUpper : List Char → List Char
  | first :: second :: rest =>
    if (first.isLower || first.isDigit) && second.isUpper then
      first :: nul :: second :: splitLowerUpper rest
    else first :: splitLowerUpper (second :: rest)
  | rest => rest

/-- `/([A-Z])([A-Z][a-z])/g`, replaced by `$1\0$2`. -/
def splitUpperWord : List Char → List Char
  | first :: second :: third :: rest =>
    if first.isUpper && second.isUpper && third.isLower then
      first :: nul :: second :: third :: splitUpperWord rest
    else first :: splitUpperWord (second :: third :: rest)
  | rest => rest

/-- `/[^A-Z0-9]+/gi`, replaced by `\0`; the flag is set inside a match. -/
def stripOthers : Bool → List Char → List Char
  | _, [] => []
  | inside, c :: rest =>
    if c.isAlphanum then c :: stripOthers false rest
    else if inside then stripOthers true rest
    else nul :: stripOthers true rest

def lowerCase (part : List Char) : List Char := part.map Char.toLower

/-- `noCase` with its default regular expressions and its default transform. -/
def noCase (delimiter : List Char) (input : List Char) : List Char :=
  let result := stripOthers false (splitUpperWord (splitLowerUpper input))
  let trimmed := (result.dropWhile (· == nul)).rdropWhile (· == nul)
  delimiter.intercalate ((trimmed.splitOn nul).map lowerCase)

def snakeCase (input : String) : String := String.ofList (noCase ['_'] input.toList)

def functionName (str : String) : String := snakeCase str

def fieldName (str : String) : String := snakeCase str

def capitalize (str : String) : String :=
  match str.toList with
  | [] => str
  | first :: rest => String.ofList (first.toUpper :: rest)

example : fieldName "sayHTTPHello2You" = "say_http_hello2_you" := by decide

end Wapc.Codegen
