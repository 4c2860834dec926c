import ApiDiagrams.Proofs.Fault
import ApiDiagrams.Proofs.Run.Trace

/-!
# Chains of renderers

A chain tries its renderers one after another until one of them decides: it answers, or it fails in
a way that no other renderer would mend. Chains within chains come to the same as one long chain.

* `Fault.PassesOn`: the faults after which the next renderer is tried;
* `PassOn`: renderers that are tried in order and all pass the work on;
* `FirstFit`, `firstFit_chain`: what a chain comes to and which of its renderers it asks;
* `FirstKnown`, `firstKnown_chain`: which version it tells;
* `LogBlind`: a renderer that does not look at the log, where chains within chains leave one more
  record;
* `chain_flatten`: a chain in the place of some of the renderers.
-/

namespace ApiDiagrams

/-- The outermost code says that the tool is not there or does not know the format. -/
def Fault.PassesOn (f : Fault) : Prop :=
  f.codes.head? = some .toolUnavailable ∨ f.codes.head? = some .unsupportedFormat

/-- The worlds differ in nothing but the log. -/
def SameButLog (w w' : World) : Prop := w' = { w with log := w'.log }

namespace SameButLog

variable {w w' : World}

theorem refl (w : World) : SameButLog w w := rfl

theorem requests (h : SameButLog w w') : w'.requests = w.requests := by rw [h]

theorem of_told (h : Told [] w w') : SameButLog w w' := by
  unfold Told at h
  rwa [List.append_nil] at h

/-- The same record is written on both sides. -/
theorem log (h : SameButLog w w') (r : Log.Record) :
    SameButLog ((Effect.log r).run w).2 ((Effect.log r).run w').2 := by
  change SameButLog (if r.isShown w.level then { w with log := w.log ++ [r] } else w)
    (if r.isShown w'.level then { w' with log := w'.log ++ [r] } else w')
  rw [h]
  dsimp only
  split_ifs <;> rfl

end SameButLog

namespace Render
namespace Renderer

open Run (Records Traces)

variable {source : ByteArray} {format : String}

theorem isSkippable_iff {f : Fault} : isSkippable f = true ↔ f.PassesOn := by
  simp [isSkippable, Fault.is, Fault.PassesOn, Fault.code?_eq_head?]

/-! ### One renderer after another -/

/-- What the log tells about a renderer that passes the work on. -/
def skipRecord (r : Renderer) (format : String) (f : Fault) : Log.Record :=
  ⟨.debug, "renderer skipped",
    [("renderer", .text r.name), ("format", .text format), ("err", .text f.text)]⟩

/-- The renderer is asked and passes the work on, and the log tells so. -/
structure Passes (source : ByteArray) (format : String) (r : Renderer) (f : Fault)
    (w w' : World) : Prop where
  fails : ((r.render source format).run w).1 = .error f
  passes : f.PassesOn
  logs : w' = ((Effect.log (skipRecord r format f)).run ((r.render source format).run w).2).2

/-- Renderers are asked in order, and each passes the work on with its fault. -/
inductive PassOn (source : ByteArray) (format : String) :
    List Renderer → List Fault → World → World → Prop
  | nil (w : World) : PassOn source format [] [] w w
  | cons {r : Renderer} {f : Fault} {rest : List Renderer} {fs : List Fault} {w w₁ w' : World}
      (first : Passes source format r f w w₁) (others : PassOn source format rest fs w₁ w') :
      PassOn source format (r :: rest) (f :: fs) w w'

/-- The renderer answers, or fails in a way that stops the search. -/
def Decides (source : ByteArray) (format : String) (r : Renderer) (w : World) : Prop :=
  ∀ f, ((r.render source format).run w).1 = .error f → ¬ f.PassesOn

section Steps

variable {r : Renderer} {rest members before after block : List Renderer} {f : Fault}
  {fs fs' : List Fault} {w w₁ w' : World}

theorem passes_or_decides (r : Renderer) (w : World) :
    (∃ f w', Passes source format r f w w') ∨ Decides source format r w := by
  by_cases h : ∃ f, ((r.render source format).run w).1 = .error f ∧ f.PassesOn
  · obtain ⟨f, hf, hp⟩ := h
    exact .inl ⟨f, _, hf, hp, rfl⟩
  · exact .inr fun f hf hp => h ⟨f, hf, hp⟩

namespace PassOn

theorem append (h : PassOn source format before fs w w₁)
    (h' : PassOn source format after fs' w₁ w') :
    PassOn source format (before ++ after) (fs ++ fs') w w' := by
  induction h with
  | nil => exact h'
  | cons first _ ih => exact .cons first (ih h')

/-- Where there is a renderer there is a last fault. -/
theorem exists_concat (h : PassOn source format members fs w w') (hm : members ≠ []) :
    ∃ fs' f, fs = fs' ++ [f] ∧ f.PassesOn := by
  induction h with
  | nil => exact absurd rfl hm
  | @cons r f rest fs _ _ _ first others ih =>
    cases others with
    | nil => exact ⟨[], f, rfl, first.passes⟩
    | cons first' others' =>
      obtain ⟨fs', g, heq, hg⟩ := ih (List.cons_ne_nil _ _)
      exact ⟨f :: fs', g, by rw [heq, List.cons_append], hg⟩

end PassOn

/-- Either all renderers pass the work on, or one of them decides after those before it did. -/
theorem passOn_or_decides (source : ByteArray) (format : String) (members : List Renderer)
    (w : World) :
    (∃ fs w', PassOn source format members fs w w') ∨
      ∃ before r after fs w₁, members = before ++ r :: after ∧
        PassOn source format before fs w w₁ ∧ Decides source format r w₁ := by
  induction members generalizing w with
  | nil => exact .inl ⟨[], w, .nil w⟩
  | cons r rest ih =>
    obtain ⟨f, w₁, first⟩ | decides := passes_or_decides r w
    · obtain ⟨fs, w', others⟩ | ⟨before, r', after, fs, w', rfl, others, decides⟩ := ih w₁
      · exact .inl ⟨_, _, .cons first others⟩
      · exact .inr ⟨r :: before, r', after, _, _, rfl, .cons first others, decides⟩
    · exact .inr ⟨[], r, rest, [], w, rfl, .nil w, decides⟩

/-! ### A chain of renderers -/

theorem renderChain_run_of_passes (h : Passes source format r f w w') (last : Option Fault)
    (rest : List Renderer) :
    (renderChain source format last (r :: rest)).run w =
      (renderChain source format (some f) rest).run w' := by
  rw [renderChain, Effect.run_bind, h.fails]
  dsimp only
  rw [if_pos (isSkippable_iff.2 h.passes), Effect.run_bind, h.logs]
  rfl

theorem renderChain_run_of_decides (h : Decides source format r w) (last : Option Fault)
    (rest : List Renderer) :
    (renderChain source format last (r :: rest)).run w = (r.render source format).run w := by
  rw [renderChain, Effect.run_bind]
  rcases hr : (r.render source format).run w with ⟨f | output, w'⟩
  · dsimp only
    have hf : ¬ isSkippable f = true := fun hs => h f (by rw [hr]) (isSkippable_iff.1 hs)
    rw [if_neg hf]
    rfl
  · rfl

/-- Renderers that pass the work on leave their last fault to those that follow. -/
theorem renderChain_run_of_passOn (h : PassOn source format before fs w w')
    (last : Option Fault) (rest : List Renderer) :
    (renderChain source format last (before ++ rest)).run w =
      (renderChain source format (fs.getLast?.or last) rest).run w' := by
  induction h generalizing last with
  | nil => rfl
  | @cons r f _ fs _ _ _ first _ ih =>
    rw [List.cons_append, renderChain_run_of_passes first, ih, List.getLast?_cons]
    cases fs.getLast? <;> rfl

/-- The renderers that are tried in order and asked: those up to the first that decides, whose
result is the result; or all of them, and the last fault is the result. -/
inductive FirstFit (source : ByteArray) (format : String) (members : List Renderer) :
    (asked : List Renderer) → World → Except Fault ByteArray × World → Prop
  | decided {before after : List Renderer} {r : Renderer} {fs : List Fault} {w w₁ : World}
      (split : members = before ++ r :: after) (passed : PassOn source format before fs w w₁)
      (decides : Decides source format r w₁) :
      FirstFit source format members (before ++ [r]) w ((r.render source format).run w₁)
  | exhausted {fs : List Fault} {f : Fault} {w w' : World}
      (passed : PassOn source format members (fs ++ [f]) w w') :
      FirstFit source format members members w (.error f, w')
  | empty {w : World} (none : members = []) :
      FirstFit source format members [] w
        (.error (.coded .toolUnavailable "no renderer configured"), w)

/-- A chain is the first fit. -/
theorem firstFit_chain (source : ByteArray) (format : String) (members : List Renderer)
    (w : World) :
    ∃ asked, FirstFit source format members asked w
      (((chain members).render source format).run w) := by
  change ∃ asked, FirstFit source format members asked w
    ((renderChain source format none members).run w)
  obtain ⟨fs, w', h⟩ | ⟨before, r, after, fs, w₁, rfl, h, decides⟩ :=
    passOn_or_decides source format members w
  · cases members with
    | nil =>
      cases h
      exact ⟨_, .empty rfl⟩
    | cons r rest =>
      obtain ⟨fs, f, rfl, -⟩ := h.exists_concat (List.cons_ne_nil _ _)
      have hrun := renderChain_run_of_passOn h none []
      rw [List.append_nil, List.getLast?_concat] at hrun
      rw [hrun]
      exact ⟨_, .exhausted h⟩
  · rw [renderChain_run_of_passOn h, renderChain_run_of_decides decides]
    exact ⟨_, .decided rfl h decides⟩

theorem FirstFit.prefix_of {asked : List Renderer} {out : Except Fault ByteArray × World}
    (h : FirstFit source format members asked w out) : asked <+: members := by
  cases h with
  | @decided before after r _ _ _ split => exact ⟨after, by rw [split]; simp⟩
  | exhausted => exact List.prefix_refl _
  | empty => exact List.nil_prefix

/-- There is nothing else a chain can come to. -/
theorem FirstFit.run_eq {asked : List Renderer} {out : Except Fault ByteArray × World}
    (h : FirstFit source format members asked w out) :
    ((chain members).render source format).run w = out := by
  change (renderChain source format none members).run w = out
  cases h with
  | decided split passed decides =>
    rw [split, renderChain_run_of_passOn passed, renderChain_run_of_decides decides]
  | exhausted passed =>
    have hrun := renderChain_run_of_passOn passed none []
    rw [List.append_nil, List.getLast?_concat] at hrun
    rw [hrun]
    rfl
  | empty none =>
    rw [none]
    rfl

/-- After renderers that pass the work on, the first fit among some more is the first fit. -/
theorem FirstFit.after_passOn {asked : List Renderer} {out : Except Fault ByteArray × World}
    (h : PassOn source format before fs w w₁) (ha : after ≠ [])
    (h' : FirstFit source format after asked w₁ out) :
    FirstFit source format (before ++ after) (before ++ asked) w out := by
  cases h' with
  | @decided middle rest r fs' _ w₂ split passed decides =>
    rw [← List.append_assoc]
    exact .decided (by rw [split, List.append_assoc]) (h.append passed) decides
  | @exhausted fs' f _ w₂ passed =>
    have hall := h.append passed
    rw [← List.append_assoc] at hall
    exact .exhausted hall
  | empty none => exact absurd none ha

/-! ### The requests that are noted down -/

section Notes

variable {note : Renderer → ByteArray → String → List LayoutRequest}

theorem Passes.traces (h : Passes source format r f w w') (hr : Records r (note r)) :
    Traces [] (note r source format) w w' := by
  have hlog := Traces.of_told
    (told_log (skipRecord r format f) ((r.render source format).run w).2)
  have hall := (hr.render source format w).trans hlog
  rw [← h.logs] at hall
  simpa using hall

theorem PassOn.traces (h : PassOn source format members fs w w')
    (hr : ∀ r ∈ members, Records r (note r)) :
    Traces [] (members.flatMap fun r => note r source format) w w' := by
  induction h with
  | nil => exact Traces.refl _
  | cons first _ ih =>
    rw [List.flatMap_cons]
    exact (first.traces (hr _ List.mem_cons_self)).trans
      (ih fun r hmem => hr r (List.mem_cons_of_mem _ hmem))

/-- What is noted down are the requests to the renderers that are asked, in order. -/
theorem FirstFit.traces {asked : List Renderer} {out : Except Fault ByteArray × World}
    (h : FirstFit source format members asked w out)
    (hr : ∀ r ∈ members, Records r (note r)) :
    Traces [] (asked.flatMap fun r => note r source format) w out.2 := by
  cases h with
  | @decided before after r fs _ w₁ split passed _ =>
    have hbefore := passed.traces fun s hs => hr s (by rw [split]; exact List.mem_append_left _ hs)
    have hlast := (hr r (by rw [split]; simp)).render source format w₁
    simpa using hbefore.trans hlast
  | exhausted passed => exact passed.traces hr
  | empty none => exact Traces.refl _

end Notes

/-! ### Versions -/

/-- Renderers that are asked in order and do not know their version. -/
inductive Unversioned : List Renderer → World → World → Prop
  | nil (w : World) : Unversioned [] w w
  | cons {r : Renderer} {rest : List Renderer} {w w' : World}
      (first : (r.version.run w).1.isUnknown = true)
      (others : Unversioned rest (r.version.run w).2 w') : Unversioned (r :: rest) w w'

/-- The version of the first of some renderers that knows it. -/
inductive FirstKnown (members : List Renderer) (w : World) : Version × World → Prop
  | known {before after : List Renderer} {r : Renderer} {w₁ : World}
      (split : members = before ++ r :: after) (skipped : Unversioned before w w₁)
      (first : (r.version.run w₁).1.isUnknown = false) :
      FirstKnown members w (r.version.run w₁)
  | none {w' : World} (skipped : Unversioned members w w') : FirstKnown members w (.unknown, w')

theorem firstKnown_chain (members : List Renderer) (w : World) :
    FirstKnown members w ((chain members).version.run w) := by
  change FirstKnown members w ((versionChain members).run w)
  induction members generalizing w with
  | nil => exact .none (.nil w)
  | cons r rest ih =>
    rw [versionChain, Effect.run_bind]
    by_cases hv : (r.version.run w).1.isUnknown = true
    · rw [if_pos hv]
      generalize hout : (versionChain rest).run (r.version.run w).2 = out
      cases hout ▸ ih (r.version.run w).2 with
      | @known before after r' w₁ split skipped first =>
        have hsplit : r :: rest = (r :: before) ++ r' :: after := by rw [split, List.cons_append]
        exact .known hsplit (.cons hv skipped) first
      | none skipped => exact .none (.cons hv skipped)
    · rw [if_neg hv]
      have hsplit : r :: rest = [] ++ r :: rest := rfl
      exact .known hsplit (.nil w) (Bool.eq_false_iff.2 hv)

/-- A chain that does not know its version leaves the question to those that follow. -/
theorem versionChain_append (block after : List Renderer) :
    versionChain (block ++ after) =
      (do
        let v ← versionChain block
        if v.isUnknown then versionChain after else return v) := by
  induction block with
  | nil => rfl
  | cons r rest ih =>
    rw [List.cons_append, versionChain, versionChain, bind_assoc]
    refine bind_congr fun v => ?_
    by_cases hv : v.isUnknown = true
    · rw [if_pos hv, if_pos hv, ih]
    · rw [if_neg hv, if_neg hv, pure_bind, if_neg hv]

theorem version_chain_nested (before block after : List Renderer) :
    (chain (before ++ chain block :: after)).version =
      (chain (before ++ block ++ after)).version := by
  change versionChain (before ++ chain block :: after) = versionChain (before ++ block ++ after)
  rw [List.append_assoc, versionChain_append, versionChain_append before, versionChain_append block]
  rfl

/-! ### Chains within chains -/

theorem name_chain_nested (before after : List Renderer) (hb : block ≠ []) :
    (chain (before ++ chain block :: after)).name = (chain (before ++ block ++ after)).name := by
  have hnames : block.map (·.name) ≠ [] := by simpa using hb
  have h := Text.intercalate_nested "|" (before.map (·.name)) (after.map (·.name)) hnames
  simpa [chain] using h

/-- A chain whose renderers all pass the work on passes it on itself, with the last fault. -/
theorem passes_chain (h : PassOn source format block (fs ++ [f]) w w') :
    Passes source format (chain block) f w
      ((Effect.log (skipRecord (chain block) format f)).run w').2 := by
  have hrun := (FirstFit.exhausted h).run_eq
  refine ⟨by rw [hrun], ?_, by rw [hrun]⟩
  obtain ⟨fs', g, heq, hg⟩ := h.exists_concat (by
    rintro rfl
    cases fs <;> cases h)
  obtain ⟨-, hlast⟩ := List.append_inj' heq rfl
  cases hlast
  exact hg

/-- A chain in which a renderer decides decides itself. -/
theorem decides_chain {r : Renderer} (split : block = before ++ r :: after)
    (passed : PassOn source format before fs w w₁) (decides : Decides source format r w₁) :
    Decides source format (chain block) w := by
  unfold Decides
  rw [(FirstFit.decided split passed decides).run_eq]
  exact decides

/-- The second list of renderers is the first, with those of a block asked through its chain if it
comes to them. -/
inductive Through (source : ByteArray) (format : String) (before block : List Renderer) (w : World) :
    (asked asked' : List Renderer) → Prop
  | without {asked : List Renderer} (early : asked <+: before) :
      Through source format before block w asked asked
  | within {fs : List Fault} {w₁ : World} {inner : List Renderer} (rest : List Renderer)
      (reached : PassOn source format before fs w w₁)
      (fits : FirstFit source format block inner w₁
        (((chain block).render source format).run w₁)) :
      Through source format before block w (before ++ inner ++ rest) (before ++ chain block :: rest)

/-- A block of renderers and its chain, each behind the same renderers: one that is asked decides, and
both come to the same; or all pass the work on. -/
inductive Meets (source : ByteArray) (format : String) (before block after : List Renderer)
    (w : World) : Prop
  | decided {asked asked' : List Renderer} {out : Except Fault ByteArray × World}
      (flat : FirstFit source format (before ++ block ++ after) asked w out)
      (nested : FirstFit source format (before ++ chain block :: after) asked' w out)
      (through : Through source format before block w asked asked')
  | passed {fs gs : List Fault} {f : Fault} {w₁ w₂ : World}
      (reached : PassOn source format before fs w w₁)
      (passed : PassOn source format block (gs ++ [f]) w₁ w₂)

theorem meets (source : ByteArray) (format : String) (before after : List Renderer)
    (hb : block ≠ []) (w : World) : Meets source format before block after w := by
  obtain ⟨fs, w₁, reached⟩ | ⟨b, r, a, fs, w₁, split, passed, decides⟩ :=
    passOn_or_decides source format before w
  · obtain ⟨gs, w₂, passed⟩ | ⟨b, r, a, gs, w₂, split, passed, decides⟩ :=
      passOn_or_decides source format block w₁
    · obtain ⟨gs', f, rfl, -⟩ := passed.exists_concat hb
      exact .passed reached passed
    · -- the block is reached, and one of its own renderers decides
      have hfit := FirstFit.decided split passed decides
      have hrun := hfit.run_eq
      have hthrough := Through.within [] reached (hrun ▸ hfit)
      rw [List.append_nil, ← List.append_assoc] at hthrough
      have hflat : before ++ block ++ after = (before ++ b) ++ r :: (a ++ after) := by simp [split]
      have hnested : FirstFit source format (before ++ chain block :: after)
          (before ++ [chain block]) w (((chain block).render source format).run w₁) :=
        .decided rfl reached (decides_chain split passed decides)
      rw [hrun] at hnested
      exact .decided (.decided hflat (reached.append passed) decides) hnested hthrough
  · -- the block is not reached
    have hflat : before ++ block ++ after = b ++ r :: (a ++ block ++ after) := by simp [split]
    have hnested : before ++ chain block :: after = b ++ r :: (a ++ chain block :: after) := by
      simp [split]
    have hasked : b ++ [r] <+: before := ⟨a, by simp [split]⟩
    exact .decided (.decided hflat passed decides) (.decided hnested passed decides)
      (.without hasked)

/-- A chain in the place of its renderers leaves one more record in the log when all of them pass the
work on, and changes nothing otherwise. -/
theorem run_chain_nested (hb : block ≠ []) (before after : List Renderer) (w : World) :
    ((chain (before ++ chain block :: after)).render source format).run w =
        ((chain (before ++ block ++ after)).render source format).run w ∨
      ∃ fs f w₁, PassOn source format (before ++ block) (fs ++ [f]) w w₁ ∧
        ((chain (before ++ block ++ after)).render source format).run w =
          (renderChain source format (some f) after).run w₁ ∧
        ((chain (before ++ chain block :: after)).render source format).run w =
          (renderChain source format (some f) after).run
            ((Effect.log (skipRecord (chain block) format f)).run w₁).2 := by
  cases meets source format before after hb w with
  | decided flat nested => exact .inl (nested.run_eq.trans flat.run_eq.symm)
  | @passed fs gs f w₁ w₂ reached passed =>
    have hall := reached.append passed
    rw [← List.append_assoc] at hall
    refine .inr ⟨fs ++ gs, f, w₂, hall, ?_, ?_⟩
    · change (renderChain source format none (before ++ block ++ after)).run w = _
      rw [renderChain_run_of_passOn hall, List.getLast?_concat]
      rfl
    · change (renderChain source format none (before ++ chain block :: after)).run w = _
      rw [renderChain_run_of_passOn reached, renderChain_run_of_passes (passes_chain passed)]

end Steps

/-! ### Renderers that do not look at the log -/

/-- What the renderer does does not depend on the log. -/
structure LogBlind (r : Renderer) : Prop where
  result : ∀ source format {w w' : World}, SameButLog w w' →
    ((r.render source format).run w').1 = ((r.render source format).run w).1
  world : ∀ source format {w w' : World}, SameButLog w w' →
    SameButLog ((r.render source format).run w).2 ((r.render source format).run w').2

theorem logBlind_scripted (number : ℕ) (s : Script) : LogBlind (.scripted number s) where
  result _ _ _ _ _ := rfl
  world source format w w' h := by
    change SameButLog { w with requests := w.requests ++ [⟨number, format, source⟩] }
      { w' with requests := w'.requests ++ [⟨number, format, source⟩] }
    rw [h]
    rfl

section Blind

variable {members before after block asked : List Renderer} {r : Renderer} {f : Fault}
  {fs : List Fault} {w w' v v' : World} {out : Except Fault ByteArray × World}

theorem Passes.congr (h : Passes source format r f w v) (hr : LogBlind r) (hw : SameButLog w w') :
    ∃ v', Passes source format r f w' v' ∧ SameButLog v v' := by
  refine ⟨_, ⟨(hr.result source format hw).trans h.fails, h.passes, rfl⟩, ?_⟩
  rw [h.logs]
  exact (hr.world source format hw).log _

theorem PassOn.congr (h : PassOn source format members fs w v) (hr : ∀ r ∈ members, LogBlind r)
    (hw : SameButLog w w') : ∃ v', PassOn source format members fs w' v' ∧ SameButLog v v' := by
  induction h generalizing w' with
  | nil => exact ⟨w', .nil w', hw⟩
  | cons first _ ih =>
    obtain ⟨w₁, first', hw₁⟩ := first.congr (hr _ List.mem_cons_self) hw
    obtain ⟨v', others', hv⟩ := ih (fun r hmem => hr r (List.mem_cons_of_mem _ hmem)) hw₁
    exact ⟨v', .cons first' others', hv⟩

/-- The log decides neither who is asked nor what comes of it. -/
theorem FirstFit.congr (h : FirstFit source format members asked w out)
    (hr : ∀ r ∈ members, LogBlind r) (hw : SameButLog w w') :
    ∃ out', FirstFit source format members asked w' out' ∧ out'.1 = out.1 ∧
      SameButLog out.2 out'.2 := by
  cases h with
  | @decided before after r fs _ w₁ split passed decides =>
    have hmem : ∀ s ∈ before, LogBlind s := fun s hs =>
      hr s (by rw [split]; exact List.mem_append_left _ hs)
    have hblind : LogBlind r := hr r (by rw [split]; simp)
    obtain ⟨v, passed', hv⟩ := passed.congr hmem hw
    have hresult := hblind.result source format hv
    refine ⟨_, .decided split passed' fun f hf => ?_, hresult, hblind.world source format hv⟩
    rw [hresult] at hf
    exact decides f hf
  | exhausted passed =>
    obtain ⟨v', passed', hv⟩ := passed.congr hr hw
    exact ⟨_, .exhausted passed', rfl, hv⟩
  | empty none => exact ⟨_, .empty none, rfl, hw⟩

theorem logBlind_chain (hr : ∀ r ∈ members, LogBlind r) : LogBlind (chain members) := by
  constructor
  · intro source format w w' hw
    obtain ⟨asked, h⟩ := firstFit_chain source format members w
    obtain ⟨out, h', heq, -⟩ := h.congr hr hw
    rw [h'.run_eq, heq]
  · intro source format w w' hw
    obtain ⟨asked, h⟩ := firstFit_chain source format members w
    obtain ⟨out, h', -, hsame⟩ := h.congr hr hw
    rwa [h'.run_eq]

/-! ### One long chain -/

/-- A chain in the place of its renderers asks the same renderers and comes to the same. -/
theorem through_chain_nested (hb : block ≠ []) (before : List Renderer)
    (ha : ∀ r ∈ after, LogBlind r) (w : World) :
    ∃ asked asked' out out',
      FirstFit source format (before ++ block ++ after) asked w out ∧
      FirstFit source format (before ++ chain block :: after) asked' w out' ∧
      Through source format before block w asked asked' ∧
      out'.1 = out.1 ∧ SameButLog out.2 out'.2 := by
  cases meets source format before after hb w with
  | decided flat nested through => exact ⟨_, _, _, _, flat, nested, through, rfl, .refl _⟩
  | @passed fs gs f w₁ w₂ reached passed =>
    have hfit := FirstFit.exhausted passed
    have hrun := hfit.run_eq
    have hthrough := fun rest => Through.within rest reached (hrun ▸ hfit)
    have hall := reached.append passed
    have hall' := reached.append (.cons (passes_chain passed) (.nil _))
    have hsame := SameButLog.of_told (told_log (skipRecord (chain block) format f) w₂)
    by_cases hnil : after = []
    · rw [← List.append_assoc] at hall
      have hthrough := hthrough []
      rw [List.append_nil] at hthrough
      rw [hnil, List.append_nil]
      exact ⟨_, _, _, _, .exhausted hall, .exhausted hall', hthrough, rfl, hsame⟩
    · obtain ⟨rest, hrest⟩ := firstFit_chain source format after w₂
      obtain ⟨out', hrest', heq, hout⟩ := hrest.congr ha hsame
      refine ⟨_, _, _, _, hrest.after_passOn hall hnil, ?_, hthrough rest, heq, hout⟩
      have h := hrest'.after_passOn hall' hnil
      rwa [List.append_assoc, List.append_assoc] at h

/-- A chain in the place of some renderers, against these renderers themselves: the same name, the
same version, the same requests and the same result. Only the log may tell the difference. -/
structure Flattens (before block after : List Renderer) : Prop where
  name : (chain (before ++ chain block :: after)).name = (chain (before ++ block ++ after)).name
  version : (chain (before ++ chain block :: after)).version =
    (chain (before ++ block ++ after)).version
  log : ∀ source format w,
    ((chain (before ++ chain block :: after)).render source format).run w =
        ((chain (before ++ block ++ after)).render source format).run w ∨
      ∃ fs f w₁, PassOn source format (before ++ block) (fs ++ [f]) w w₁ ∧
        ((chain (before ++ block ++ after)).render source format).run w =
          (renderChain source format (some f) after).run w₁ ∧
        ((chain (before ++ chain block :: after)).render source format).run w =
          (renderChain source format (some f) after).run
            ((Effect.log (skipRecord (chain block) format f)).run w₁).2
  render : (∀ r ∈ after, LogBlind r) → ∀ source format w,
    ((chain (before ++ chain block :: after)).render source format |>.run w).1 =
        ((chain (before ++ block ++ after)).render source format |>.run w).1 ∧
      SameButLog ((chain (before ++ block ++ after)).render source format |>.run w).2
        ((chain (before ++ chain block :: after)).render source format |>.run w).2 ∧
      ∃ asked asked',
        FirstFit source format (before ++ block ++ after) asked w
          (((chain (before ++ block ++ after)).render source format).run w) ∧
        FirstFit source format (before ++ chain block :: after) asked' w
          (((chain (before ++ chain block :: after)).render source format).run w) ∧
        Through source format before block w asked asked'

/-- **Chains are the first fit, and chains within chains come to the same as one long chain.** Each
renderer is asked at most once, in order, up to the first that answers or fails with another code
than the two that pass the work on. -/
theorem chain_first_fit_flatten (members : List Renderer) :
    (∀ source format w, ∃ asked, asked <+: members ∧
      FirstFit source format members asked w (((chain members).render source format).run w) ∧
      ∀ note : Renderer → ByteArray → String → List LayoutRequest,
        (∀ r ∈ members, Records r (note r)) →
          (((chain members).render source format).run w).2.requests =
            w.requests ++ asked.flatMap fun r => note r source format) ∧
    (∀ w, FirstKnown members w ((chain members).version.run w)) ∧
    ∀ before block after, members = before ++ block ++ after → block ≠ [] →
      Flattens before block after := by
  refine ⟨fun source format w => ?_, firstKnown_chain members, fun before block after _ hb => ?_⟩
  · obtain ⟨asked, h⟩ := firstFit_chain source format members w
    exact ⟨asked, h.prefix_of, h, fun note hr => (h.traces hr).requests⟩
  · refine ⟨name_chain_nested before after hb, version_chain_nested before block after,
      fun source format w => run_chain_nested hb before after w, fun ha source format w => ?_⟩
    obtain ⟨asked, asked', out, out', hflat, hnested, hthrough, heq, hsame⟩ :=
      through_chain_nested hb before ha w
    rw [hflat.run_eq, hnested.run_eq]
    exact ⟨heq, hsame, asked, asked', hflat, hnested, hthrough⟩

/-- Two tools that are missing, as a chain of their own, and one that answers, as another. -/
theorem missing_tools_flatten :
    let missing n := scripted n .unavailable
    let present := chain [scripted 2 { outputs := [("svg", .empty)] }]
    [missing 0, missing 1] ≠ [] ∧ (∀ r ∈ [present], LogBlind r) ∧
      (((chain [chain [missing 0, missing 1], present]).render .empty "svg").run {}).1 =
        .ok .empty ∧
      (((chain [chain [missing 0, missing 1], present]).render .empty "svg").run {}).2.requests =
        [⟨0, "svg", .empty⟩, ⟨1, "svg", .empty⟩, ⟨2, "svg", .empty⟩] := by
  have hblind : ∀ r ∈ [chain [scripted 2 { outputs := [("svg", .empty)] }]], LogBlind r := by
    refine List.forall_mem_singleton.2 (logBlind_chain ?_)
    exact List.forall_mem_singleton.2 (logBlind_scripted _ _)
  have hne : [scripted 0 .unavailable, scripted 1 .unavailable] ≠ [] := List.cons_ne_nil _ _
  obtain ⟨-, -, hflat⟩ := chain_first_fit_flatten
    [scripted 0 .unavailable, scripted 1 .unavailable,
      chain [scripted 2 { outputs := [("svg", .empty)] }]]
  obtain ⟨hresult, hworld, -⟩ := (hflat [] _ [_] rfl hne).render hblind .empty "svg" {}
  exact ⟨hne, hblind, hresult.trans rfl, hworld.requests.trans rfl⟩

end Blind
end Renderer
end Render
end ApiDiagrams
