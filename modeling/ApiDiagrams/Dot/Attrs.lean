import ApiDiagrams.Text.Raw

/-!
# Attributes

The attributes of nodes and edges: texts under names, one text per name, kept in the order of the
names so that they are always written the same way.

* `Attrs`: the attributes;
* `Attrs.get?`, `Attrs.insert`, `Attrs.erase`, `Attrs.ofList`: as a finite map;
* `quoteValue`: a value as it stands between double quotes;
* `Attrs.format`: the attributes as the graph language writes them.
-/

namespace ApiDiagrams
namespace Dot

/-- Attributes by name, in the order of the names. -/
structure Attrs where
  entries : List (String × String) := []
  deriving DecidableEq, Repr, Inhabited

namespace Attrs

/-- No attributes. -/
def empty : Attrs := ⟨[]⟩

/-- The value of an attribute. -/
def get? (a : Attrs) (key : String) : Option String := a.entries.lookup key

/-- The attribute is given. -/
def contains (a : Attrs) (key : String) : Bool := (a.get? key).isSome

/-- Puts an entry into its place in a list ordered by key, over one of the same key. -/
def insertInto (key value : String) : List (String × String) → List (String × String)
  | [] => [(key, value)]
  | (k, v) :: rest =>
    if key = k then (key, value) :: rest
    else if key < k then (key, value) :: (k, v) :: rest
    else (k, v) :: insertInto key value rest

/-- Gives an attribute a value. -/
def insert (a : Attrs) (key value : String) : Attrs := ⟨insertInto key value a.entries⟩

/-- Takes an attribute away. -/
def erase (a : Attrs) (key : String) : Attrs := ⟨a.entries.filter fun e => e.1 ≠ key⟩

/-- The attributes of a list of pairs; the last pair of a name counts. -/
def ofList (pairs : List (String × String)) : Attrs :=
  pairs.foldl (fun a (k, v) => a.insert k v) empty

end Attrs

/-- Escapes a value for a place between double quotes. Escapes of the graph language such as `\n`
and `\l` are kept. A quote gets a backslash, and an odd run of backslashes before a quote or at the
end gets one more, so that it cannot swallow the quote. `odd` says that an odd run stands before. -/
def escapeFrom : (odd : Bool) → List Char → List Char
  | odd, [] => if odd then ['\\'] else []
  | odd, c :: rest =>
    if c = '\\' then '\\' :: escapeFrom (!odd) rest
    else if c = '"' then
      if odd then '\\' :: '\\' :: '"' :: escapeFrom false rest
      else '\\' :: '"' :: escapeFrom false rest
    else c :: escapeFrom false rest

/-- A value as it stands between double quotes. Values are read character by character, so every
stray byte of one becomes U+FFFD. -/
def quoteValue (value : Text.Raw) : String :=
  String.ofList (escapeFrom false value.lossy.toList)

@[simp] theorem toList_quoteValue (value : String) :
    (quoteValue value).toList = escapeFrom false value.toList := by
  simp [quoteValue]

namespace Attrs

/-- The attributes as `key="value"`, joined by commas. -/
def format (a : Attrs) : String :=
  String.intercalate "," (a.entries.map fun (k, v) => k ++ "=\"" ++ quoteValue v ++ "\"")

end Attrs
end Dot
end ApiDiagrams
