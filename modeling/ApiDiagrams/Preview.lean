import ApiDiagrams.Data.Word
import ApiDiagrams.Run.Output
import ApiDiagrams.Text.Raw
import ApiDiagrams.Validation

/-!
# The preview server

The server shows the files of one directory. The start page leads to the list of diagrams, a health
check answers that all is well, and every other page is a file of the directory.

* `Preview.Request`, `Preview.Response`;
* `Preview.rawPath`: the path that a request asks for, with escapes;
* `Preview.routePath`: the path of a request as it is compared with the routes;
* `Preview.serveFile`: the answer to a request for a file;
* `Preview.respond`: the answer to a request, which listeners hear of.
-/

namespace ApiDiagrams
namespace Preview

/-- A request. -/
structure Request where
  method : String := "GET"
  /-- What was asked for, with escapes. -/
  target : String
  deriving DecidableEq, Repr, Inhabited

/-- What an answer holds. -/
inductive Body
  | bytes (content : ByteArray)
  /-- All is well. -/
  | healthy
  deriving DecidableEq, Inhabited

/-- An answer. -/
structure Response where
  status : Nat
  /-- Where the answer leads, empty for nowhere. -/
  location : String := ""
  body : Body
  deriving DecidableEq, Inhabited

/-- An answer of one line. -/
def plainAnswer (status : Nat) (text : String) : Response where
  status
  body := .bytes text.toUTF8

def notFound : Response := plainAnswer 404 "404 page not found\n"
def invalidName : Response := plainAnswer 400 "invalid file name\n"
def notAllowed : Response := plainAnswer 405 ""

/-! ### Paths -/

/-- A character of the name of a scheme; digits and marks never come first. -/
def isSchemeChar (c : Char) : Bool :=
  Text.isLetter c || Text.isDigit c || c == '+' || c == '-' || c == '.'

/-- What follows the scheme and its colon, when a target starts with a scheme. -/
def afterScheme? (target : List Char) : Option (List Char) :=
  match Text.span isSchemeChar target with
  | (c :: _, ':' :: rest) => if Text.isLetter c then some rest else none
  | _ => none

/-- What a request asks for, as an address. A tunnel is asked for by the place alone. -/
def address (r : Request) : List Char :=
  if r.method = "CONNECT" && !Text.startsWith ['/'] r.target.toList then
    "http://".toList ++ r.target.toList
  else r.target.toList

/-- The path of a request with its escapes, without the query. In an address with a scheme the path
follows the place of the server; it may be empty, and it is when the address has no slash. -/
def rawPath (r : Request) : List Char :=
  match afterScheme? (address r) with
  | none => (address r).takeWhile (· ≠ '?')
  | some rest =>
    match rest.takeWhile (· ≠ '?') with
    | '/' :: '/' :: place => place.dropWhile (· ≠ '/')
    | '/' :: path => '/' :: path
    | _ => []

/-- The bytes of a path after its escapes were read. -/
def unescape : List Char → List UInt8
  | '%' :: a :: b :: rest =>
    if Text.isHexDigit a && Text.isHexDigit b then (Text.hexNumber [a, b]).toUInt8 :: unescape rest
    else '%'.toString.toUTF8.toList ++ unescape (a :: b :: rest)
  | c :: rest => c.toString.toUTF8.toList ++ unescape rest
  | [] => []

/-- A byte that stands for itself in a path. -/
def isPlainByte (b : UInt8) : Bool :=
  let c := Char.ofNat b.toNat
  b < 0x80 && (Text.isLetter c || Text.isDigit c || "-_.~$&+,/:;=@".toList.contains c)

/-- A path with the usual escapes. -/
def escape (bytes : List UInt8) : List Char :=
  bytes.flatMap fun b =>
    if isPlainByte b then [Char.ofNat b.toNat]
    else '%' :: (Text.hexDigits 2 b.toNat).map Text.upper

/-- The path after its escapes were read. -/
def readPath (r : Request) : Text.Raw := .ofBytes ⟨(unescape (rawPath r)).toArray⟩

/-- The path as it is compared with the routes. Unusual escapes are not read, and without a path
the start page is asked for. -/
def routePath (r : Request) : Text.Raw :=
  if rawPath r = [] then "/"
  else if escape (unescape (rawPath r)) = rawPath r then readPath r
  else String.ofList (rawPath r)

/-! ### Answers -/

/-- The page that the start page leads to. -/
def startPage : String := "/graphs/" ++ Run.indexFile

/-- Leads to the list of diagrams. -/
def redirect : Response where
  status := 302
  location := startPage
  body := .bytes ("<a href=\"" ++ startPage ++ "\">Found</a>.\n\n").toUTF8

/-- The file of a request lies in the served directory itself. -/
def isFileName (name : Text.Raw) : Bool :=
  (Validation.checkPath name).isOk && !name.units.contains (.char '/')

/-- The answer to a request for a file of a directory. No file has a name with stray bytes. -/
def serveFile (files : FileTree) (dir : String) (name : Text.Raw) : Response :=
  if !isFileName name then invalidName
  else
    match name.text?.map fun name => files.read (Path.join [dir, name]) with
    | some (.ok content) => { status := 200, body := .bytes content }
    | _ => notFound

/-- The methods that requests may have; only `GET` is answered. -/
def methods : List String :=
  ["CONNECT", "DELETE", "GET", "HEAD", "OPTIONS", "PATCH", "POST", "PUT", "TRACE"]

/-- What the server can do. -/
inductive Route
  | start
  | health
  | file (name : Text.Raw)
  deriving DecidableEq, Repr

/-- What stands before the name of a file. -/
def fileFront : Text.Raw := "/graphs/"

/-- The route of a path. -/
def route? (path : Text.Raw) : Option Route :=
  if path = "/" then some .start
  else if path = "/healthz" then some .health
  else if fileFront.units.isPrefixOf path.units then
    let name := path.units.drop fileFront.units.length
    if name.isEmpty || name.contains (.char '/') then none else some (.file ⟨name⟩)
  else none

/-- The answer to a request about the files of a directory. Files are only read. -/
def answer (files : FileTree) (dir : String) (r : Request) : Response :=
  if !methods.contains r.method then notAllowed
  else
    match route? (routePath r) with
    | none => notFound
    | some route =>
      if r.method ≠ "GET" then notAllowed
      else
        match route with
        | .start => redirect
        | .health => { status := 200, body := .healthy }
        | .file name => serveFile files dir name

/-- Answers a request and tells whoever listens. -/
def respond (dir : String) (r : Request) : Effect Response := do
  Effect.report (.request r.method (readPath r).lossy)
  let a := answer (← get).files dir r
  Effect.report (.response r.method (readPath r).lossy a.status)
  return a

end Preview
end ApiDiagrams
