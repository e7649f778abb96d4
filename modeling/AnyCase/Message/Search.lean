import AnyCase.Json.Fields
import AnyCase.Json.Reader
import AnyCase.Json.Writer

/-!
# `Message.Search` — what the search program is told

A `Search` is written as one JSON object. It is read leniently: members that it does not have are not
looked at, beyond the grammar.
-/

namespace AnyCase

/-- Everything the search program needs to know. -/
structure Search where
  query : String
  triggerSearch : Bool
  isRegex : Bool
  isCaseSensitive : Bool
  matchWholeWord : Bool
  /-- The files to search in, as a list of filters; all if there is none. -/
  filesToInclude : Option String
  /-- The files not to search in. -/
  filesToExclude : Option String
  deriving DecidableEq, Repr, Inhabited

namespace Search

/-- A search as JSON; filters are left out if there are none. -/
def toJson (s : Search) : Json :=
  .obj ([("query", .str s.query),
    ("triggerSearch", .bool s.triggerSearch),
    ("isRegex", .bool s.isRegex),
    ("isCaseSensitive", .bool s.isCaseSensitive),
    ("matchWholeWord", .bool s.matchWholeWord)]
    ++ Json.optionalMember "filesToInclude" (s.filesToInclude.map .str)
    ++ Json.optionalMember "filesToExclude" (s.filesToExclude.map .str))

/-- The search of a JSON value. -/
def ofJson? (v : Json) : Option Search := do
  let fields ← Json.fields? v
  if !fields.fits 7 then none
  else
    some ⟨← fields.need? 0 "query" Json.text?,
      ← fields.need? 1 "triggerSearch" Json.flag?,
      ← fields.need? 2 "isRegex" Json.flag?,
      ← fields.need? 3 "isCaseSensitive" Json.flag?,
      ← fields.need? 4 "matchWholeWord" Json.flag?,
      ← fields.get? 5 "filesToInclude" (Json.optional? Json.text?) (some none),
      ← fields.get? 6 "filesToExclude" (Json.optional? Json.text?) (some none)⟩

/-- The text of a search. -/
def write (s : Search) : String := s.toJson.compact

/-- The search of a text. -/
def read? (text : String) : Option Search := (Json.skim? text).bind ofJson?

end Search

end AnyCase
