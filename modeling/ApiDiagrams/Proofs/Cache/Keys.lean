import ApiDiagrams.Cache.Key
import ApiDiagrams.Proofs.Json.Strings

/-!
# Keys tell requests apart

The text that is hashed for a key is an array of strings. A written string says where it ends, so
no character can move from one string to the next, and two keys agree only for the same request,
as long as the hash tells the texts apart.

* `Json.array_injective`: arrays with the same text hold the same strings;
* `Keyer.text`, `Keyer.text_injective`: the bytes that are hashed for a key;
* `Keyer.withinScopes`, `Keyer.eq_of_withinScopes_eq`: keys within scopes.
-/

namespace ApiDiagrams
namespace Json

/-- What follows a written string is not taken for a part of it. -/
theorem quote_append_inj {s s' rest rest' : List Char} (h : quote s ++ rest = quote s' ++ rest') :
    s = s' ∧ rest = rest' := by
  have htail : s.flatMap quoteChar ++ '"' :: rest = s'.flatMap quoteChar ++ '"' :: rest' := by
    simpa [quote] using h
  -- both sides are one text, and that is read in one way only
  have hread := characters?_quote (Nat.lt_succ_of_le (le_max_left s.length s'.length)) rest
  have hread' := characters?_quote (Nat.lt_succ_of_le (le_max_right s.length s'.length)) rest'
  rw [htail, hread', Option.some.injEq, Prod.mk.injEq] at hread
  exact ⟨hread.1.symm, hread.2.symm⟩

/-- The strings of an array that follow another one. -/
def moreText (items : List String) : List Char := items.flatMap fun s => ',' :: quote s.toList

theorem array_cons (s : String) (items : List String) :
    array (s :: items) = '[' :: (quote s.toList ++ (moreText items ++ [']'])) := by
  have hitems : Text.intercalate [','] ((s :: items).map fun s => quote s.toList) =
      quote s.toList ++ moreText items := by
    induction items generalizing s with
    | nil => simp [Text.intercalate, moreText]
    | cons t items ih =>
      have hnext : Text.intercalate [','] ((s :: t :: items).map fun s => quote s.toList) =
          quote s.toList ++ [','] ++
            Text.intercalate [','] ((t :: items).map fun s => quote s.toList) := rfl
      rw [hnext, ih]
      simp [moreText]
  rw [array, hitems]
  simp

theorem moreText_inj {items items' : List String}
    (h : moreText items ++ [']'] = moreText items' ++ [']']) : items = items' := by
  induction items generalizing items' with
  | nil =>
    cases items' with
    | nil => rfl
    | cons t items' => simp [moreText] at h
  | cons s items ih =>
    cases items' with
    | nil => simp [moreText] at h
    | cons t items' =>
      have hrest : quote s.toList ++ (moreText items ++ [']']) =
          quote t.toList ++ (moreText items' ++ [']']) := by simpa [moreText] using h
      obtain ⟨hst, hrest⟩ := quote_append_inj hrest
      rw [String.toList_injective hst, ih hrest]

/-- Arrays with the same text hold the same strings. -/
theorem array_injective : Function.Injective array := by
  intro items items' h
  cases items with
  | nil =>
    cases items' with
    | nil => rfl
    | cons t items' =>
      rw [array_cons] at h
      simp [array, Text.intercalate, quote] at h
  | cons s items =>
    cases items' with
    | nil =>
      rw [array_cons] at h
      simp [array, Text.intercalate, quote] at h
    | cons t items' =>
      rw [array_cons, array_cons] at h
      obtain ⟨hst, hrest⟩ := quote_append_inj (List.cons.inj h).2
      rw [String.toList_injective hst, moreText_inj hrest]

end Json

namespace Cache
namespace Keyer

/-- The bytes that are hashed for a key. -/
def text (k : RenderKey) : ByteArray := (String.ofList (Json.array (parts k))).toUTF8

theorem text_injective : Function.Injective text := by
  intro k k' h
  have hparts : parts k = parts k' :=
    Json.array_injective (String.ofList_injective (String.toByteArray_inj.1 h))
  cases k
  cases k'
  simpa [parts] using hparts

/-- The keys within scopes, the outermost scope first. -/
def withinScopes (digest : Digest) (scopes : List String) : Keyer := scopes.foldr inScope (plain digest)

theorem withinScopes_eq (digest : Digest) (scopes : List String) (k : RenderKey) :
    withinScopes digest scopes k = String.join scopes ++ ("render:" ++ digest (text k)) := by
  induction scopes with
  | nil => simp [withinScopes, plain, text]
  | cons scope scopes ih =>
    have hcons : withinScopes digest (scope :: scopes) k = scope ++ withinScopes digest scopes k := rfl
    rw [hcons, ih, String.join_cons, String.append_assoc]

/-- Within the same scopes, keys tell apart what the hash tells apart. -/
theorem eq_of_withinScopes_eq {digest : Digest} {scopes : List String} {k k' : RenderKey}
    (hdigest : digest (text k) = digest (text k') → text k = text k')
    (h : withinScopes digest scopes k = withinScopes digest scopes k') : k = k' := by
  rw [withinScopes_eq, withinScopes_eq] at h
  refine text_injective (hdigest ?_)
  have hhash := String.append_right_inj _ |>.1 h
  exact String.append_right_inj _ |>.1 hhash

end Keyer
end Cache
end ApiDiagrams
