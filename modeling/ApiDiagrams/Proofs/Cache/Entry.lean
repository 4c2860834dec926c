import ApiDiagrams.Cache.Entry
import ApiDiagrams.Proofs.Json.Strings
import ApiDiagrams.Proofs.Text.Base64
import ApiDiagrams.Proofs.Time.Moment

/-!
# Entries are read back from their files

The file of an entry is an object of strings: the key as it is, the data as base64, and times. Each
member fills its own field, and an entry that never expires has no member for the end of its time.

* `Entry.text_eq`: the file as an object of strings;
* `Entry.moment?_text`: times are written without escapes and read back;
* `Entry.parse?_text`: an entry whose times can be written is read back.
-/

namespace ApiDiagrams
namespace Cache
namespace Entry

/-- The members of the file of an entry. -/
def fields (e : Entry) : List (List Char × List Char) :=
  ("key".toList, e.key.toList) :: ("data".toList, (Text.encodeBase64 e.data).toList) ::
    ("stored_at".toList, Time.Moment.text e.storedAt) ::
    (if e.expiresAt = Time.Moment.zero then []
      else [("expires_at".toList, Time.Moment.text e.expiresAt)])

theorem text_eq (e : Entry) : e.text = Json.objectText e.fields := by
  unfold text fields Json.objectText Json.membersText member
  split_ifs <;> simp [Text.intercalate]

/-! ### Times -/

/-- The characters of times are written as they are. -/
theorem quoteChar_of_mem_text {moment : ℤ} {c : Char} (h : c ∈ Time.Moment.text moment) :
    Json.quoteChar c = [c] := by
  have hmarks : (['-', 'T', ':', '.', 'Z'].all fun d => Json.quoteChar d == [d]) = true := by decide
  have hdigits : ∀ n ≤ 57, 48 ≤ n → Json.quoteChar (Char.ofNat n) = [Char.ofNat n] := by decide
  rcases Time.Moment.mem_text h with hc | hc
  · obtain ⟨hlow, hhigh⟩ := Text.isDigit_iff.1 hc
    have hdigit := hdigits c.toNat hhigh hlow
    rwa [Char.ofNat_toNat] at hdigit
  · exact beq_iff_eq.1 (List.all_eq_true.1 hmarks c hc)

theorem quoted_text (moment : ℤ) :
    (Time.Moment.text moment).flatMap Json.quoteChar = Time.Moment.text moment := by
  rw [List.flatMap_congr fun c hc => quoteChar_of_mem_text hc]
  simp

/-- A time is written without escapes, so that it is read back. -/
theorem moment?_text {moment : ℤ} (h : Time.Moment.isWritable moment = true) :
    moment? (Json.stringOf (Time.Moment.text moment)) = some moment := by
  have hplain : (Time.Moment.text moment).contains '\\' = false := by
    rw [List.contains_eq_mem, decide_eq_false_iff_not]
    intro hmem
    have hquote := quoteChar_of_mem_text hmem
    revert hquote
    decide
  rw [Json.stringOf, quoted_text, hplain, moment?, String.toList_ofList]
  exact Time.Moment.parse?_text h

/-! ### Members -/

theorem take_key (d : Draft) (key : List Char) :
    d.take "key" (Json.stringOf key) =
      some { d with entry.key := String.ofList key } := by
  have hdata : Text.equalFold "data" "key" = false := by decide
  simp [Draft.take, hdata, Json.stringOf]

theorem take_data (d : Draft) (data : ByteArray) :
    ∃ ground, d.take "data" (Json.stringOf (Text.encodeBase64 data).toList) =
      some { entry := { d.entry with data }, ground } := by
  refine ⟨data.toList, ?_⟩
  simp [Draft.take, Json.stringOf, bytes?, Text.decodeBase64?_encode, groundAfter,
    Text.ofList_toList]

theorem take_storedAt (d : Draft) {moment : ℤ} (h : Time.Moment.isWritable moment = true) :
    d.take "stored_at" (Json.stringOf (Time.Moment.text moment)) =
      some { d with entry.storedAt := moment } := by
  have hdata : Text.equalFold "data" "stored_at" = false := by decide
  have hkey : Text.equalFold "key" "stored_at" = false := by decide
  have hread := moment?_text h
  unfold Json.stringOf at hread ⊢
  generalize ((Time.Moment.text moment).flatMap Json.quoteChar).contains '\\' = escaped at *
  simp [Draft.take, hdata, hkey, hread]

theorem take_expiresAt (d : Draft) {moment : ℤ} (h : Time.Moment.isWritable moment = true) :
    d.take "expires_at" (Json.stringOf (Time.Moment.text moment)) =
      some { d with entry.expiresAt := moment } := by
  have hdata : Text.equalFold "data" "expires_at" = false := by decide
  have hkey : Text.equalFold "key" "expires_at" = false := by decide
  have hstored : Text.equalFold "stored_at" "expires_at" = false := by decide
  have hread := moment?_text h
  unfold Json.stringOf at hread ⊢
  generalize ((Time.Moment.text moment).flatMap Json.quoteChar).contains '\\' = escaped at *
  simp [Draft.take, hdata, hkey, hstored, hread]

/-- An entry whose times can be written is read back from its file. -/
theorem parse?_text {e : Entry} (h : e.isWritable = true) :
    parse? (String.ofList e.text).toUTF8 = some e := by
  obtain ⟨hstored, hexpires⟩ := Bool.and_eq_true_iff.1 h
  obtain ⟨ground, hdata⟩ := take_data { entry := { key := e.key } } e.data
  rw [text_eq, parse?, fields, Json.parse?_objectText]
  simp only [Option.bind_eq_bind, Option.bind_some, Json.membersOf, List.map_cons,
    String.ofList_toList, List.foldlM_cons, take_key, hdata, take_storedAt _ hstored]
  split_ifs with hzero
  · -- an entry starts with the end that stands for none
    rw [List.map_nil, List.foldlM_nil, ← hzero]
    rfl
  · rw [List.map_cons, List.map_nil, List.foldlM_cons, String.ofList_toList,
      take_expiresAt _ hexpires]
    rfl

end Entry
end Cache
end ApiDiagrams
