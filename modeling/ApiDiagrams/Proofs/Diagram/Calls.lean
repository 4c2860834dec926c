import ApiDiagrams.Proofs.Diagram.Picture
import ApiDiagrams.Proofs.Model.Calls

/-!
# What call graphs show

A call graph shows recorded calls. Its seeds are the routines that the targets stand for and that
take part in a call; on request their callers and callees are shown with them, and each shown call
has a seed at one of its ends.

* `Calls`: one entity calls another by the model;
* `IsSeed`, `Builder.mem_profiledRoutines_iff`: the routines that a call graph starts from;
* `Builder.callGraph_displays`: what a call graph shows.
-/

namespace ApiDiagrams
namespace Diagram

/-- The model records a call from one entity to another. -/
def Calls (m : Model) (ix : Index) (u v : EntityId) : Prop :=
  ∃ c ∈ m.calls, ix.lookup c.caller = some u ∧ ix.lookup c.callee = some v

/-- A target stands for the entity, or stands for a module or class with a member that does. -/
def StandsFor (ix : Index) (t i : EntityId) : Prop :=
  ix.resolve t = i ∨ (ix.entity (ix.resolve t)).isNamespace = true ∧
    ∃ d ∈ (ix.entity (ix.resolve t)).members, ix.resolve d = i

/-- The entity is a routine that a target stands for and that takes part in a recorded call. -/
def IsSeed (m : Model) (ix : Index) (targets : List EntityId) (i : EntityId) : Prop :=
  (ix.entity i).kind = .routine ∧ (∃ t ∈ targets, StandsFor ix t i) ∧
    ∃ j, Calls m ix j i ∨ Calls m ix i j

namespace Builder

variable {m : Model} {b : Builder} {targets : List EntityId} {opts : Options} {i j u v : EntityId}

theorem calls_iff (h : m.Valid) : Calls m m.index u v ↔
    ∃ c ∈ m.calls, m.place c.caller = u ∧ m.place c.callee = v := by
  refine exists_congr fun c => and_congr_right fun hc => ?_
  rw [Model.lookup_eq_some_iff_place h, Model.lookup_eq_some_iff_place h,
    and_iff_right (h.calls c hc).1, and_iff_right (h.calls c hc).2]

theorem mem_callers_iff (h : m.Valid) (hindex : b.index = m.index) :
    u ∈ b.index.callers v ↔ Calls m m.index u v := by
  rw [hindex, Model.mem_callers_iff, calls_iff h]
  simp only [and_comm]

theorem mem_callees_iff (h : m.Valid) (hindex : b.index = m.index) :
    v ∈ b.index.callees u ↔ Calls m m.index u v := by
  rw [hindex, Model.mem_callees_iff, calls_iff h]

theorem isProfiled_iff (h : m.Valid) (hindex : b.index = m.index) :
    b.index.isProfiled i = true ↔ ∃ j, Calls m m.index j i ∨ Calls m m.index i j := by
  rw [hindex, Model.isProfiled_iff]
  simp only [calls_iff h]
  constructor
  · rintro ⟨c, hc, hcallee | hcaller⟩
    · exact ⟨_, Or.inl ⟨c, hc, rfl, hcallee⟩⟩
    · exact ⟨_, Or.inr ⟨c, hc, hcaller, rfl⟩⟩
  · rintro ⟨j, ⟨c, hc, -, hcallee⟩ | ⟨c, hc, hcaller, -⟩⟩
    · exact ⟨c, hc, Or.inl hcallee⟩
    · exact ⟨c, hc, Or.inr hcaller⟩

theorem mem_routinesOf_iff {t : EntityId} : i ∈ b.routinesOf t ↔
    (b.index.entity i).kind = .routine ∧ StandsFor b.index t i := by
  unfold routinesOf StandsFor
  dsimp only
  by_cases hroutine : (b.index.entity (b.index.resolve t)).kind = .routine
  · have hno : (b.index.entity (b.index.resolve t)).isNamespace = false := by
      simp [Entity.isNamespace, hroutine]
    rw [if_pos hroutine, hno, List.mem_singleton]
    constructor
    · rintro rfl
      exact ⟨hroutine, Or.inl rfl⟩
    · rintro ⟨-, rfl | ⟨hfalse, -⟩⟩
      · rfl
      · cases hfalse
  · have hself : (b.index.entity i).kind = .routine → b.index.resolve t ≠ i := by
      rintro hi rfl
      exact hroutine hi
    rw [if_neg hroutine]
    by_cases hspace : (b.index.entity (b.index.resolve t)).isNamespace = true
    · rw [if_pos hspace, List.mem_filter, List.mem_map, decide_eq_true_eq, and_comm,
        and_iff_right hspace]
      exact and_congr_right fun hi => (or_iff_right (hself hi)).symm
    · rw [if_neg hspace]
      simp only [List.not_mem_nil, false_iff, not_and, not_or]
      exact fun hi => ⟨hself hi, fun hs => absurd hs hspace⟩

theorem mem_profiledRoutines_iff (h : m.Valid) (hindex : b.index = m.index) :
    i ∈ b.profiledRoutines targets ↔ IsSeed m m.index targets i := by
  unfold profiledRoutines IsSeed
  rw [List.mem_filter, isProfiled_iff h hindex, List.mem_flatMap, ← and_assoc]
  refine and_congr_left fun _ => ?_
  simp only [mem_routinesOf_iff, hindex]
  exact ⟨fun ⟨t, ht, hi, hs⟩ => ⟨hi, t, ht, hs⟩, fun ⟨hi, t, ht, hs⟩ => ⟨t, ht, hi, hs⟩⟩

/-- The routines of a call graph: the seeds, and on request those that call one and those that one
calls. -/
theorem mem_callSet_iff (h : m.Valid) (hindex : b.index = m.index) :
    i ∈ b.callSet (b.profiledRoutines targets) opts ↔ IsSeed m m.index targets i ∨
      (opts.addCallers = true ∧ ∃ s, IsSeed m m.index targets s ∧ Calls m m.index i s) ∨
      (opts.addCallees = true ∧ ∃ s, IsSeed m m.index targets s ∧ Calls m m.index s i) := by
  have hcallers : i ∈ (b.profiledRoutines targets).flatMap b.index.callers ↔
      ∃ s, IsSeed m m.index targets s ∧ Calls m m.index i s := by
    simp only [List.mem_flatMap, mem_profiledRoutines_iff h hindex, mem_callers_iff h hindex]
  have hcallees : i ∈ (b.profiledRoutines targets).flatMap b.index.callees ↔
      ∃ s, IsSeed m m.index targets s ∧ Calls m m.index s i := by
    simp only [List.mem_flatMap, mem_profiledRoutines_iff h hindex, mem_callees_iff h hindex]
  have hoption : ∀ (flag : Bool) (l : List EntityId),
      i ∈ (if flag then l else []) ↔ flag = true ∧ i ∈ l := by
    intro flag l
    cases flag <;> simp
  rw [callSet, List.mem_eraseDups, List.mem_append, List.mem_append, hoption, hoption, hcallers,
    hcallees, mem_profiledRoutines_iff h hindex, or_assoc]

/-- The calls of a call graph: those with a seed at one end. -/
theorem mem_callPairs_iff (h : m.Valid) (hindex : b.index = m.index) :
    (u, v) ∈ b.callPairs (b.profiledRoutines targets) ↔
      Calls m m.index u v ∧ (IsSeed m m.index targets u ∨ IsSeed m m.index targets v) := by
  simp only [callPairs, List.mem_flatMap, List.mem_append, List.mem_map, Prod.mk.injEq,
    mem_profiledRoutines_iff h hindex, mem_callers_iff h hindex, mem_callees_iff h hindex]
  constructor
  · rintro ⟨s, hs, ⟨x, hcall, rfl, rfl⟩ | ⟨x, hcall, rfl, rfl⟩⟩
    · exact ⟨hcall, Or.inr hs⟩
    · exact ⟨hcall, Or.inl hs⟩
  · rintro ⟨hcall, hs | hs⟩
    · exact ⟨u, hs, Or.inr ⟨v, hcall, rfl, rfl⟩⟩
    · exact ⟨v, hs, Or.inl ⟨u, hcall, rfl, rfl⟩⟩

/-- With a profile, a call graph has one node for each seed, on request for each of their callers
and callees, and one edge for each call between these with a seed at one end. Without a profile it
has none of either, and one warning says so. -/
theorem callGraph_displays (m : Model) (ix : Index) (b : Builder) (hbuild : m.build = .ok ix)
    (hindex : b.index = ix) (targets : List EntityId) (opts : Options) (c : Dot.Context) :
    (ix.hasProfile = true →
      (∃ is, Displays (b.callGraph targets opts c).1 (nodeOf (b.nodeStyle opts) c.nextId is) is
          (fun u v => Calls m ix u v ∧ (IsSeed m ix targets u ∨ IsSeed m ix targets v)) ∧
        ∀ i, i ∈ is ↔ IsSeed m ix targets i ∨
          (opts.addCallers = true ∧ ∃ s, IsSeed m ix targets s ∧ Calls m ix i s) ∨
          (opts.addCallees = true ∧ ∃ s, IsSeed m ix targets s ∧ Calls m ix s i)) ∧
      (b.callGraph targets opts c).2.2 = []) ∧
    (ix.hasProfile = false →
      (b.callGraph targets opts c).1.nodes = [] ∧ (b.callGraph targets opts c).1.edges = [] ∧
        ∃ r : Log.Record, (b.callGraph targets opts c).2.2 = [r] ∧ r.level = .warn) := by
  obtain ⟨hv, rfl⟩ := Model.build_eq_ok_iff.1 hbuild
  constructor
  · intro hprofile
    rw [callGraph_eq_draw _ _ _ _ (hindex ▸ hprofile)]
    refine ⟨⟨_, Plan.displays_draw (p := b.callPlan targets opts) ?_ ?_, fun i => ?_⟩, rfl⟩
    · exact nodup_sortByName (nodup_eraseDups _)
    · exact fun i _ j _ => mem_callPairs_iff hv hindex
    · exact mem_sortByName.trans (mem_callSet_iff hv hindex)
  · intro hprofile
    rw [callGraph_eq_draw_unprofiled _ _ _ _ (hindex ▸ hprofile)]
    exact ⟨rfl, edgesOf_nil _ _, noProfileWarning, rfl, rfl⟩

/-- The sample without its call. -/
def uncalled : Model := { Model.sample with calls := [] }

/-- A module with a function and a variable that stands for it: the function is found twice, and it
calls a class. -/
theorem callGraph_displays_of_alias :
    (Model.sample.build = .ok Model.sample.index ∧ Model.sample.index.hasProfile = true ∧
      (∃ is, Displays
          ((pageless Model.sample.index).callGraph [0] { addCallees := true } {}).1
          (nodeOf ((pageless Model.sample.index).nodeStyle { addCallees := true }) 0 is) is
          (fun u v => Calls Model.sample Model.sample.index u v ∧
            (IsSeed Model.sample Model.sample.index [0] u ∨
              IsSeed Model.sample Model.sample.index [0] v)) ∧
        ∀ i, i ∈ is ↔ IsSeed Model.sample Model.sample.index [0] i ∨
          (false = true ∧ ∃ s, IsSeed Model.sample Model.sample.index [0] s ∧
            Calls Model.sample Model.sample.index i s) ∨
          (true = true ∧ ∃ s, IsSeed Model.sample Model.sample.index [0] s ∧
            Calls Model.sample Model.sample.index s i)) ∧
      ((pageless Model.sample.index).callGraph [0] { addCallees := true } {}).2.2 = []) ∧
    uncalled.build = .ok uncalled.index ∧ uncalled.index.hasProfile = false ∧
      ((pageless uncalled.index).callGraph [0] {} {}).1.nodes = [] ∧
      ((pageless uncalled.index).callGraph [0] {} {}).1.edges = [] ∧
      ∃ r : Log.Record, ((pageless uncalled.index).callGraph [0] {} {}).2.2 = [r] ∧
        r.level = .warn := by
  have hbuild : Model.sample.build = .ok Model.sample.index := by decide +kernel
  have hprofile : Model.sample.index.hasProfile = true := by decide +kernel
  have hbuild' : uncalled.build = .ok uncalled.index := by decide +kernel
  have hprofile' : uncalled.index.hasProfile = false := by decide +kernel
  have hwith := (callGraph_displays Model.sample Model.sample.index (pageless Model.sample.index)
    hbuild rfl [0] { addCallees := true } {}).1 hprofile
  have hwithout := (callGraph_displays uncalled uncalled.index (pageless uncalled.index) hbuild' rfl
    [0] {} {}).2 hprofile'
  exact ⟨⟨hbuild, hprofile, hwith⟩, hbuild', hprofile', hwithout⟩

end Builder
end Diagram
end ApiDiagrams
