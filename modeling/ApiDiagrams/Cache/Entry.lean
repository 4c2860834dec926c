import ApiDiagrams.Data.Word
import ApiDiagrams.Json.Value
import ApiDiagrams.Json.Write
import ApiDiagrams.Text.Base64
import ApiDiagrams.Text.LetterCase
import ApiDiagrams.Time.Moment

/-!
# Entries of the file store

An entry is a file with its key, its data, and the times when it was stored and when it expires.

* `Entry`: what the file says;
* `Entry.text`, `Entry.parse?`: writing and reading; `Entry.isWritable`: what can be written.
-/

namespace ApiDiagrams
namespace Cache

/-- One stored entry. Times are moments; the zero moment means that the entry does not expire. -/
structure Entry where
  key : String := ""
  data : ByteArray := .empty
  storedAt : Int := Time.Moment.zero
  expiresAt : Int := Time.Moment.zero
  deriving DecidableEq, Inhabited

namespace Entry

/-- The entry is no longer valid. -/
def isExpired (e : Entry) (now : Int) : Bool :=
  e.expiresAt ≠ Time.Moment.zero && e.expiresAt < now

/-- The times of the entry can be written. -/
def isWritable (e : Entry) : Bool :=
  Time.Moment.isWritable e.storedAt && Time.Moment.isWritable e.expiresAt

/-- One member of a file, with a comma in front. -/
def member (name : String) (value : List Char) : List Char :=
  ',' :: Json.quote name.toList ++ ':' :: value

/-- The text of a file. -/
def text (e : Entry) : List Char :=
  let time (t : Int) : List Char := Json.quote (Time.Moment.text t)
  '\x7b' :: Json.quote "key".toList ++ ':' :: Json.quote e.key.toList ++
    member "data" (Json.quote (Text.encodeBase64 e.data).toList) ++
    member "stored_at" (time e.storedAt) ++
    (if e.expiresAt = Time.Moment.zero then [] else member "expires_at" (time e.expiresAt)) ++
    ['\x7d']

/-- The byte that a number writes. -/
def byte? (digits : List Char) : Option UInt8 :=
  let n := Text.decimalNumber digits
  if digits.all Text.isDigit && n < 256 then some n.toUInt8 else none

/-- An entry while its file is read. -/
structure Draft where
  entry : Entry := {}
  /-- The bytes that earlier values of the data left, which an array is laid over. -/
  ground : List UInt8 := []
  deriving Inhabited

/-- The bytes of an array laid over others: a null leaves the byte that stands there, and zeros
follow the others. -/
def overlay : (ground : List UInt8) → List Json.Value → Option (List UInt8)
  | _, [] => some []
  | ground, v :: rest => do
    let b ← match v with
      | .number digits => byte? digits
      | .null => some (ground.headD 0)
      | _ => none
    return b :: (← overlay ground.tail rest)

/-- The bytes of a value over others: base64 text, or an array of numbers. -/
def bytes? (ground : List UInt8) : Json.Value → Option (List UInt8)
  | .text s _ => (Text.decodeBase64? s.toList).map (·.toList)
  | .array vs => overlay ground vs
  | .null => some []
  | _ => none

/-- What a value leaves for the next one. An array keeps the bytes behind it, unless it is empty. -/
def groundAfter (ground data : List UInt8) : Json.Value → List UInt8
  | .array (_ :: _) => data ++ ground.drop data.length
  | _ => data

/-- The moment of a value, a text without escapes. -/
def moment? : Json.Value → Option Int
  | .text s false => Time.Moment.parse? s.toList
  | _ => none

/-- The entry with one member of a file taken in. Names match in any letter case, and unknown ones
are skipped. -/
def Draft.take (d : Draft) (name : String) (v : Json.Value) : Option Draft :=
  let named (field : String) : Bool := Text.equalFold field name
  if named "data" then
    (bytes? d.ground v).map fun data =>
      { entry := { d.entry with data := ⟨data.toArray⟩ }, ground := groundAfter d.ground data v }
  else
    match v with
    | .null => some d
    | v =>
      if named "key" then
        match v with
        | .text key _ => some { d with entry.key := key }
        | _ => none
      else if named "stored_at" then (moment? v).map fun t => { d with entry.storedAt := t }
      else if named "expires_at" then (moment? v).map fun t => { d with entry.expiresAt := t }
      else some d

/-- The entry of a file. -/
def parse? (bytes : ByteArray) : Option Entry := do
  match ← Json.parse? bytes with
  | .object members =>
    let d ← members.foldlM (fun (d : Draft) (name, v) => d.take name v) {}
    return d.entry
  | .null => some {}
  | _ => none

end Entry
end Cache
end ApiDiagrams
