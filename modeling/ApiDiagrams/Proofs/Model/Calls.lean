import ApiDiagrams.Proofs.Index.Calls
import ApiDiagrams.Proofs.Model.Building

/-!
# The recorded calls of a model

The tables of a built model say, by number, what its list of calls says by name.

* `partners`: the partners of a name, by name, in order of the first call;
* `callers_place`, `callees_place`: the tables of a model hold these;
* `mem_callers_iff`, `mem_callees_iff`, `isProfiled_iff`: the tables in terms of the calls.
-/

namespace ApiDiagrams
namespace Model

/-- The partners of a name in calls, once each, in order of the first call. -/
def partners (key partner : CallSpec → String) (calls : List CallSpec) (n : String) :
    List String :=
  calls.foldl (fun l c => if key c = n then addOnce l (partner c) else l) []

theorem partners_concat (key partner : CallSpec → String) (calls : List CallSpec) (c : CallSpec)
    (n : String) : partners key partner (calls ++ [c]) n =
      if key c = n then addOnce (partners key partner calls n) (partner c)
      else partners key partner calls n := by
  rw [partners, List.foldl_append]
  rfl

theorem exists_of_mem_partners {key partner : CallSpec → String} {calls : List CallSpec}
    {n x : String} (h : x ∈ partners key partner calls n) :
    ∃ c ∈ calls, key c = n ∧ partner c = x := by
  induction calls using List.reverseRecOn with
  | nil => exact absurd h List.not_mem_nil
  | append_singleton calls c ih =>
    rw [partners_concat] at h
    split_ifs at h with hc
    · rcases mem_addOnce.1 h with h | rfl
      · obtain ⟨d, hd, hx⟩ := ih h
        exact ⟨d, List.mem_append_left _ hd, hx⟩
      · exact ⟨c, by simp, hc, rfl⟩
    · obtain ⟨d, hd, hx⟩ := ih h
      exact ⟨d, List.mem_append_left _ hd, hx⟩

/-! ### The tables of a model -/

theorem place_inj {m : Model} {n n' : String} (hn : n ∈ m.names) (h : m.place n = m.place n') :
    n = n' :=
  List.idxOf_inj hn |>.1 h

theorem mem_names_of_mem_partners {m : Model} {key partner : CallSpec → String}
    (hpartner : ∀ c ∈ m.calls, partner c ∈ m.names) {n x : String}
    (hx : x ∈ partners key partner m.calls n) : x ∈ m.names := by
  obtain ⟨c, hc, -, rfl⟩ := exists_of_mem_partners hx
  exact hpartner c hc

/-- The partners of an entity by number, when each call records one under another. -/
theorem find_foldl_record {m : Model} {key partner : CallSpec → String} {calls : List CallSpec}
    (hkey : ∀ c ∈ calls, key c ∈ m.names) (hpartner : ∀ c ∈ calls, partner c ∈ m.names)
    (n : String) :
    CallTable.find (calls.foldl (fun t c => t.record (m.place (key c)) (m.place (partner c))) [])
      (m.place n) = (partners key partner calls n).map m.place := by
  induction calls using List.reverseRecOn with
  | nil => rfl
  | append_singleton calls c ih =>
    have ih := ih (fun d hd => hkey d (List.mem_append_left _ hd))
      fun d hd => hpartner d (List.mem_append_left _ hd)
    rw [List.foldl_append, List.foldl_cons, List.foldl_nil, CallTable.find_record, ih,
      partners_concat]
    -- distinct names have distinct numbers
    by_cases hc : key c = n
    · rw [if_pos (by rw [hc]), if_pos hc, map_addOnce]
      intro y hy hyc
      obtain ⟨d, hd, -, rfl⟩ := exists_of_mem_partners hy
      exact place_inj (hpartner d (List.mem_append_left _ hd)) hyc
    · have hne : m.place n ≠ m.place (key c) := fun he => hc (place_inj (hkey c (by simp)) he.symm)
      rw [if_neg hne, if_neg hc]

theorem foldl_note (place : String → EntityId) (calls : List CallSpec) (p : Option Profile) :
    (calls.foldl (note place) p).getD {} =
      calls.foldl (fun p c => p.addCall (place c.caller) (place c.callee)) (p.getD {}) := by
  induction calls generalizing p with
  | nil => rfl
  | cons c calls ih => rw [List.foldl_cons, List.foldl_cons, ih]; rfl

theorem getD_profile (m : Model) : m.profile.getD {} =
    ⟨m.calls.foldl (fun t c => t.record (m.place c.callee) (m.place c.caller)) [],
      m.calls.foldl (fun t c => t.record (m.place c.caller) (m.place c.callee)) []⟩ := by
  have hstart : (if m.profiled then some {} else none : Option Profile).getD {} = {} := by
    cases m.profiled <;> rfl
  rw [profile, foldl_note, hstart,
    Profile.foldl_addCall]

theorem mem_callers_iff (m : Model) {e x : EntityId} : x ∈ m.index.callers e ↔
    ∃ c ∈ m.calls, m.place c.callee = e ∧ m.place c.caller = x := by
  change x ∈ CallTable.find (m.profile.getD {}).callers e ↔ _
  rw [getD_profile, CallTable.mem_find_foldl_record]
  simp [CallTable.find]

theorem mem_callees_iff (m : Model) {e x : EntityId} : x ∈ m.index.callees e ↔
    ∃ c ∈ m.calls, m.place c.caller = e ∧ m.place c.callee = x := by
  change x ∈ CallTable.find (m.profile.getD {}).callees e ↔ _
  rw [getD_profile, CallTable.mem_find_foldl_record]
  simp [CallTable.find]

theorem isProfiled_iff (m : Model) {e : EntityId} : m.index.isProfiled e = true ↔
    ∃ c ∈ m.calls, m.place c.callee = e ∨ m.place c.caller = e := by
  change ((m.profile.getD {}).callers.has e || (m.profile.getD {}).callees.has e) = true ↔ _
  rw [getD_profile, Bool.or_eq_true, CallTable.has_foldl_record, CallTable.has_foldl_record]
  simp only [CallTable.has, List.lookup_nil, Option.isSome_none, Bool.false_eq_true, false_or,
    ← exists_or, and_or_left]

theorem callers_place {m : Model} (h : m.Valid) (n : String) :
    m.index.callers (m.place n) =
      (partners CallSpec.callee CallSpec.caller m.calls n).map m.place := by
  change CallTable.find (m.profile.getD {}).callers (m.place n) = _
  rw [getD_profile]
  exact find_foldl_record (fun c hc => (h.calls c hc).2) (fun c hc => (h.calls c hc).1) n

theorem callees_place {m : Model} (h : m.Valid) (n : String) :
    m.index.callees (m.place n) =
      (partners CallSpec.caller CallSpec.callee m.calls n).map m.place := by
  change CallTable.find (m.profile.getD {}).callees (m.place n) = _
  rw [getD_profile]
  exact find_foldl_record (fun c hc => (h.calls c hc).1) (fun c hc => (h.calls c hc).2) n

end Model
end ApiDiagrams
