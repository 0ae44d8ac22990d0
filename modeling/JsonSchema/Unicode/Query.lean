import JsonSchema.Unicode.Age
import JsonSchema.Unicode.Property
import JsonSchema.Unicode.Script
import JsonSchema.Unicode.Segmentation

/-!
Characters asked for by name: by a property that they have, by their category or script, or by a
property and its value. Names are compared loosely.
-/

namespace JsonSchema.Unicode

/-! ## Names -/

/-- The form in which names are compared: ASCII in lower case without blanks, hyphens and underscores. -/
def plainName (name : List Char) : List Char :=
  (name.filter fun c => c.toNat < 128 && c != ' ' && c != '-' && c != '_').map Char.toLower

/-- The form in which names are compared, without an `is` at the front; but `isc` is no name for the
group of categories `c`. -/
def looseName (name : List Char) : String :=
  String.ofList <| match name with
    | i :: s :: rest =>
      if (i = 'i' ∨ i = 'I') ∧ (s = 's' ∨ s = 'S') then
        if plainName rest = ['c'] then ['i', 's', 'c'] else plainName rest
      else plainName name
    | name => plainName name

/-! ## Queries -/

/-- The characters of the property, the category or the script with the name. -/
def namedSet? (name : List Char) : Option CodeSet :=
  let name := looseName name
  Named.find? properties name <|> categorySet? name <|> scriptSet? name

/-- The characters for which the property has the value. -/
def valuedSet? (property value : List Char) : Option CodeSet :=
  let value := looseName value
  match looseName property with
  | "gc" | "generalcategory" => categorySet? value
  | "sc" | "script" => scriptSet? value
  | "scx" | "scriptextensions" => scriptExtensionSet? value
  | "age" => ageSet? value
  | "gcb" | "graphemeclusterbreak" => Named.find? graphemeBreaks value
  | "wb" | "wordbreak" => Named.find? wordBreaks value
  | "sb" | "sentencebreak" => Named.find? sentenceBreaks value
  | _ => none

end JsonSchema.Unicode
