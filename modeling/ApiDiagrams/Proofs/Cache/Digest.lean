import ApiDiagrams.Proofs.Cache.Files
import ApiDiagrams.Proofs.Cache.Keys

/-!
# The hash in use

A hash is written with 64 digits, so it is always known where in a key the scopes end: keys of two
scopes differ before their hashes, and keys of one scope differ in their hashes, unless the hash
takes two different texts for one.

* `isHashName_hex`: a hash is written with 64 hexadecimal digits;
* `FileStore.isProper_hex`: so a directory with this hash is a proper store;
* `Keyer.withinScopes_hex_eq_iff`: when two keys are equal.
-/

namespace ApiDiagrams
namespace Cache

open FileStore (isHashName isHashName_iff IsProper)

theorem length_bigEndian (n k : ℕ) : (Sha256.bigEndian n k).length = n := by
  induction n generalizing k with
  | zero => rfl
  | succ n ih =>
    rw [Sha256.bigEndian, List.length_append, ih]
    rfl

/-- Each byte is written with two digits. -/
theorem isHashName_flatMap (bytes : List UInt8) : isHashName (2 * bytes.length)
    (bytes.flatMap fun b => Text.hexDigits 2 b.toNat) = true := by
  have hbyte : ∀ n < 256, isHashName 2 (Text.hexDigits 2 n) = true := by decide +kernel
  induction bytes with
  | nil => rfl
  | cons b bytes ih =>
    obtain ⟨hlen, hall⟩ := isHashName_iff.1 (hbyte b.toNat b.toNat_lt)
    obtain ⟨hlen', hall'⟩ := isHashName_iff.1 ih
    refine isHashName_iff.2 ⟨?_, fun c hc => ?_⟩
    · rw [List.flatMap_cons, List.length_append, hlen, hlen', List.length_cons]
      ring
    · rw [List.flatMap_cons] at hc
      exact (List.mem_append.1 hc).elim (hall c) (hall' c)

theorem isHashName_hex (message : ByteArray) :
    isHashName 64 (Sha256.hex message).toList = true := by
  have hlen : (Sha256.digest message).length = 32 := by
    simp [Sha256.digest, length_bigEndian]
  have hhash := isHashName_flatMap (Sha256.digest message)
  rw [hlen] at hhash
  rwa [Sha256.hex, String.toList_ofList]

/-- A directory with the hash in use is a proper store. -/
theorem FileStore.isProper_hex {dir : String} (hdir : dir ≠ "") : IsProper ⟨dir, Sha256.hex⟩ where
  named := hdir
  hash := isHashName_hex

namespace Keyer

/-- Texts that end in equally long ones are equal exactly when both pieces are. -/
theorem append_eq_append_iff {front front' tail tail' : String}
    (hlen : tail.toList.length = tail'.toList.length) :
    front ++ tail = front' ++ tail' ↔ front = front' ∧ tail = tail' := by
  simp only [← String.toList_inj, String.toList_append]
  exact ⟨fun h => List.append_inj' h hlen, fun ⟨hfront, htail⟩ => by rw [hfront, htail]⟩

/-- A key is the names of its scopes, the outermost first, and 64 hexadecimal digits after the word
that all keys have. Two keys of which the hash tells the requests apart are equal exactly when the
scopes read the same in a row and all four texts of the requests are equal. -/
theorem withinScopes_hex_eq_iff (scopes scopes' : List String) (k k' : RenderKey)
    (hhash : Sha256.hex (text k) = Sha256.hex (text k') → text k = text k') :
    (withinScopes Sha256.hex scopes k = withinScopes Sha256.hex scopes' k' ↔
      String.join scopes = String.join scopes' ∧ k.sourceHash = k'.sourceHash ∧
        k.renderer = k'.renderer ∧ k.version = k'.version ∧ k.format = k'.format) ∧
    ∃ hash, withinScopes Sha256.hex scopes k = String.join scopes ++ ("render:" ++ hash) ∧
      isHashName 64 hash.toList = true := by
  refine ⟨?_, Sha256.hex (text k), withinScopes_eq _ _ _, isHashName_hex _⟩
  have hfields : k = k' ↔ k.sourceHash = k'.sourceHash ∧ k.renderer = k'.renderer ∧
      k.version = k'.version ∧ k.format = k'.format := by
    cases k
    cases k'
    simp
  have hlen : ("render:" ++ Sha256.hex (text k)).toList.length =
      ("render:" ++ Sha256.hex (text k')).toList.length := by
    rw [String.toList_append, String.toList_append, List.length_append, List.length_append,
      (isHashName_iff.1 (isHashName_hex (text k))).1, (isHashName_iff.1 (isHashName_hex (text k'))).1]
  rw [withinScopes_eq, withinScopes_eq, append_eq_append_iff hlen, ← hfields,
    String.append_right_inj]
  refine and_congr_right fun _ => ⟨fun h => text_injective (hhash h), ?_⟩
  rintro rfl
  rfl

/-- Scopes that read the same in a row make one key, and a character that moves from one text of a
request to the next makes another one. -/
theorem withinScopes_hex_of_moved_character :
    (withinScopes Sha256.hex ["org:", "p:"] ⟨"ab", "c", "2.43", "\""⟩ =
        withinScopes Sha256.hex ["org:p:"] ⟨"ab", "c", "2.43", "\""⟩ ∧
      ∃ hash, withinScopes Sha256.hex ["org:", "p:"] ⟨"ab", "c", "2.43", "\""⟩ =
        String.join ["org:", "p:"] ++ ("render:" ++ hash) ∧ isHashName 64 hash.toList = true) ∧
    (Sha256.hex (text ⟨"ab", "c", "2.43", "\""⟩) = Sha256.hex (text ⟨"a", "bc", "2.43", "\""⟩) →
      text ⟨"ab", "c", "2.43", "\""⟩ = text ⟨"a", "bc", "2.43", "\""⟩) ∧
    withinScopes Sha256.hex ["p:"] ⟨"ab", "c", "2.43", "\""⟩ ≠
      withinScopes Sha256.hex ["p:"] ⟨"a", "bc", "2.43", "\""⟩ := by
  have hhash : Sha256.hex (text ⟨"ab", "c", "2.43", "\""⟩) ≠
      Sha256.hex (text ⟨"a", "bc", "2.43", "\""⟩) := by decide +kernel
  obtain ⟨hsame, hform⟩ := withinScopes_hex_eq_iff ["org:", "p:"] ["org:p:"]
    ⟨"ab", "c", "2.43", "\""⟩ ⟨"ab", "c", "2.43", "\""⟩ fun _ => rfl
  refine ⟨⟨hsame.2 ⟨by decide, rfl, rfl, rfl, rfl⟩, hform⟩, fun h => absurd h hhash, fun h => ?_⟩
  have hfields := (withinScopes_hex_eq_iff ["p:"] ["p:"] _ _ fun h => absurd h hhash).1.1 h
  exact absurd hfields.2.1 (by decide)

end Keyer
end Cache
end ApiDiagrams
