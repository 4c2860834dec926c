import ApiDiagrams.Proofs.Cache.Files
import ApiDiagrams.Proofs.Cache.Keys
import ApiDiagrams.Proofs.Run.Trace
import ApiDiagrams.Render.Cached

/-!
# Rendering with a store changes no answer

Of the store nothing is assumed but that what it finds was given to it under the same key. It may
lose entries and fail at any call, and anything may happen to it between two calls. As keys tell
requests apart, what is found is what the renderer would have answered.

* `Computes`: a renderer whose answers depend on the request only;
* `Call`: one call of the renderer with a store; `Call.hit?`, `Call.kept?`, `Call.result`: what it
  found, what it gave to the store, and how it ended;
* `Session`: calls after one another with a faithful store;
* `Transparent`: a call that ends like one without a store;
* `cached_transparent`: every call of every session does.
-/

namespace ApiDiagrams
namespace Render

open Run (Records Traces)

/-- The renderer has one version, and its answer depends on the source and the format only. -/
structure Computes (r : Renderer) (v : Version)
    (answer : ByteArray → String → Except Fault ByteArray) : Prop where
  version : ∀ w, (r.version.run w).1 = v
  render : ∀ source format w, ((r.render source format).run w).1 = answer source format

theorem computes_scripted (number : ℕ) (s : Script) :
    Computes (.scripted number s) s.version fun _ format => s.answer format where
  version _ := rfl
  render _ _ _ := rfl

/-! ### One call -/

/-- A call of a renderer with a store, in the world where it begins. -/
structure Call where
  world : World
  source : ByteArray
  format : String

namespace Call

variable (r : Renderer) (c : Caching) (q : Call)

/-- How the call ends. -/
def result : Except Fault ByteArray × World := ((r.cached c).render q.source q.format).run q.world

/-- The key, and the world after the renderer was asked for its version. -/
def keying : String × World := (r.cacheKey c q.source q.format).run q.world

/-- The key that the call reads and writes. -/
def key : String := (q.keying r c).1

/-- What the store answers. -/
def reading : Except Fault (Option ByteArray) × World :=
  (c.store.get (q.key r c)).run (q.keying r c).2

/-- What the call finds in the store. A store that fails finds nothing. -/
def hit? : Option ByteArray :=
  match (q.reading r c).1 with
  | .ok found => found
  | .error _ => none

/-- The world in which the renderer is asked when nothing was found. -/
def missed : World :=
  let told := match (q.reading r c).1 with
    | .ok _ => (q.reading r c).2
    | .error f => ((Effect.log (Renderer.storeFailure "read" f)).run (q.reading r c).2).2
  ((Effect.report (.cacheMiss q.format)).run told).2

/-- What the renderer answers when nothing was found. -/
def rendering : Except Fault ByteArray × World := (r.render q.source q.format).run (q.missed r c)

/-- What the call gives to the store, whether or not the store can keep it. -/
def kept? : Option ByteArray :=
  if (q.hit? r c).isSome then none else (q.rendering r c).1.toOption

/-- What the request is known by when the renderer has a version. -/
def renderKey (v : Version) : Cache.RenderKey where
  sourceHash := c.digest q.source
  renderer := r.name
  version := v.text
  format := q.format

variable {r c q}

theorem key_eq {v : Version} {answer : ByteArray → String → Except Fault ByteArray}
    (h : Computes r v answer) : q.key r c = c.keyer (q.renderKey r c v) := by
  rw [renderKey, ← h.version q.world]
  rfl

theorem keying_snd : (q.keying r c).2 = (r.version.run q.world).2 := rfl

theorem reading_of_hit {data : ByteArray} (h : q.hit? r c = some data) :
    (q.reading r c).1 = .ok (some data) := by
  unfold hit? at h
  split at h
  · rename_i found hfound
    rw [hfound, h]
  · cases h

/-- What the store answers decides what is left to do. -/
theorem result_eq : q.result r c =
    (match (q.reading r c).1 with
      | .ok (some output) => do
        Effect.report (.cacheHit q.format)
        return .ok output
      | .ok none => do
        Effect.report (.cacheMiss q.format)
        r.renderAndKeep c (q.key r c) q.source q.format
      | .error f => do
        Effect.log (Renderer.storeFailure "read" f)
        Effect.report (.cacheMiss q.format)
        r.renderAndKeep c (q.key r c) q.source q.format :
      Effect (Except Fault ByteArray)).run (q.reading r c).2 := rfl

theorem result_of_hit {data : ByteArray} (h : q.hit? r c = some data) : q.result r c =
    (.ok data, ((Effect.report (.cacheHit q.format)).run (q.reading r c).2).2) := by
  rw [result_eq, reading_of_hit h]
  rfl

theorem result_of_no_hit (h : q.hit? r c = none) : q.result r c =
    (r.renderAndKeep c (q.key r c) q.source q.format).run (q.missed r c) := by
  unfold hit? at h
  rw [result_eq]
  cases hread : (q.reading r c).1 with
  | ok found =>
    obtain rfl : found = none := by simpa [hread] using h
    dsimp only
    rw [Effect.run_bind, missed, hread]
  | error f =>
    dsimp only
    rw [Effect.run_bind, Effect.run_bind, missed, hread]

/-- Without a hit, the call gives to the store what the renderer answers. -/
theorem kept?_of_no_hit (h : q.hit? r c = none) :
    q.kept? r c = (q.rendering r c).1.toOption := by
  rw [kept?, h]
  rfl

theorem result_of_error (h : q.hit? r c = none) {f : Fault} (hf : (q.rendering r c).1 = .error f) :
    q.result r c = (.error f, (q.rendering r c).2) := by
  have hrun : (r.render q.source q.format).run (q.missed r c) = q.rendering r c := rfl
  rw [result_of_no_hit h, Renderer.renderAndKeep, Effect.run_bind, hrun, hf]
  rfl

/-- The store is told to keep an answer, and the answer is returned whatever the store says. -/
theorem result_of_ok (h : q.hit? r c = none) {output : ByteArray}
    (hf : (q.rendering r c).1 = .ok output) : q.result r c =
      (.ok output,
        match (c.store.set (q.key r c) output c.ttl).run (q.rendering r c).2 with
        | (.ok (), w) => ((Effect.report (.cacheSet q.format output.size)).run w).2
        | (.error f, w) => ((Effect.log (Renderer.storeFailure "write" f)).run w).2) := by
  have hrun : (r.render q.source q.format).run (q.missed r c) = q.rendering r c := rfl
  rw [result_of_no_hit h, Renderer.renderAndKeep, Effect.run_bind, hrun, hf]
  dsimp only
  rw [Effect.run_bind]
  obtain ⟨kept, w⟩ := (c.store.set (q.key r c) output c.ttl).run (q.rendering r c).2
  cases kept <;> rfl

end Call

/-! ### What a renderer and a store are asked -/

/-- The store leaves the progress display and the notes of renderers alone. -/
structure Quiet (s : Cache.Store) : Prop where
  get : ∀ key w, Traces [] [] w ((s.get key).run w).2
  set : ∀ key data ttl w, Traces [] [] w ((s.set key data ttl).run w).2

theorem quiet_fileStore (s : Cache.FileStore) : Quiet s.store where
  get key w := by
    change Traces [] [] w ((s.get key).run w).2
    cases hread : w.files.read (s.entryPath key) with
    | error e =>
      rw [Cache.FileStore.get_run_of_error hread]
      exact Traces.refl w
    | ok bytes =>
      rw [Cache.FileStore.get_run_of_read hread]
      split <;> exact ⟨(List.append_nil _).symm, (List.append_nil _).symm⟩
  set key data ttl w := by
    have hset : ∃ files now, ((s.set key data ttl).run w).2 = { w with files, now } := by
      by_cases hw : (Cache.FileStore.entryAt key data ttl w.now).isWritable = true
      · cases hdirs : (w.files.makeDirs (s.entryDir key)).2 with
        | error e => exact ⟨_, _, by rw [Cache.FileStore.set_run_of_no_directory hw hdirs]⟩
        | ok u => exact ⟨_, _, by rw [Cache.FileStore.set_run_of_directory hw hdirs]⟩
      · exact ⟨_, _, by rw [Cache.FileStore.set_run_of_unwritable (by simpa using hw)]⟩
    obtain ⟨files, now, hset⟩ := hset
    change Traces [] [] w ((s.set key data ttl).run w).2
    rw [hset]
    exact ⟨(List.append_nil _).symm, (List.append_nil _).symm⟩

theorem traces_missed {r : Renderer} {c : Caching} {note : ByteArray → String → List LayoutRequest}
    (hr : Records r note) (hq : Quiet c.store) (q : Call) :
    Traces [] [] q.world (q.missed r c) := by
  have hread : Traces [] [] q.world (q.reading r c).2 :=
    (hr.version q.world).trans (hq.get (q.key r c) (q.keying r c).2)
  unfold Call.missed
  cases (q.reading r c).1 with
  | ok found => exact hread.trans (Traces.of_told (told_report _ _))
  | error f =>
    have hsaid := Traces.of_told (told_log (Renderer.storeFailure "read" f) (q.reading r c).2)
    exact (hread.trans hsaid).trans (Traces.of_told (told_report _ _))

/-- The renderer is asked once without a hit, and not at all with one. -/
theorem traces_result {r : Renderer} {c : Caching} {note : ByteArray → String → List LayoutRequest}
    (hr : Records r note) (hq : Quiet c.store) (q : Call) :
    Traces [] (if (q.hit? r c).isSome then [] else note q.source q.format) q.world
      (q.result r c).2 := by
  cases hhit : q.hit? r c with
  | some data =>
    rw [Call.result_of_hit hhit]
    have hread : Traces [] [] q.world (q.reading r c).2 :=
      (hr.version q.world).trans (hq.get (q.key r c) (q.keying r c).2)
    exact hread.trans (Traces.of_told (told_report _ _))
  | none =>
    have hanswer : Traces [] (note q.source q.format) q.world (q.rendering r c).2 :=
      (traces_missed hr hq q).trans (hr.render q.source q.format (q.missed r c))
    cases hrendering : (q.rendering r c).1 with
    | error f =>
      rw [Call.result_of_error hhit hrendering]
      exact hanswer
    | ok output =>
      have hset := hanswer.trans (hq.set (q.key r c) output c.ttl (q.rendering r c).2)
      rw [Call.result_of_ok hhit hrendering]
      generalize (c.store.set (q.key r c) output c.ttl).run (q.rendering r c).2 = after at hset ⊢
      obtain ⟨kept, w⟩ := after
      cases kept with
      | ok _ => simpa using hset.trans (Traces.of_told (told_report _ w))
      | error f => simpa using hset.trans (Traces.of_told (told_log _ w))

/-- A renderer matters to a call only where it is asked. -/
theorem result_congr_render {r : Renderer} {c : Caching} {q : Call}
    {render : ByteArray → String → Effect (Except Fault ByteArray)}
    (h : q.hit? r c = none → render q.source q.format = r.render q.source q.format) :
    q.result { r with render } c = q.result r c := by
  cases hhit : q.hit? r c with
  | some data => rw [Call.result_of_hit hhit, Call.result_of_hit (r := { r with render }) hhit]; rfl
  | none =>
    rw [Call.result_of_no_hit hhit, Call.result_of_no_hit (r := { r with render }) hhit,
      Renderer.renderAndKeep, Renderer.renderAndKeep]
    dsimp only
    rw [h hhit]
    rfl

/-- A store matters to a call only by what it finds and by what it does with what it is given. -/
theorem result_congr_set {r : Renderer} {c : Caching} {q : Call}
    {set : String → ByteArray → ℤ → Effect (Except Fault Unit)}
    (h : ∀ data, q.kept? r c = some data →
      set (q.key r c) data c.ttl = c.store.set (q.key r c) data c.ttl) :
    q.result r { c with store := { c.store with set } } = q.result r c := by
  have hsame : q.hit? r { c with store := { c.store with set } } = q.hit? r c := rfl
  cases hhit : q.hit? r c with
  | some data =>
    rw [Call.result_of_hit hhit, Call.result_of_hit (hsame.trans hhit)]
    rfl
  | none =>
    cases hrendering : (q.rendering r c).1 with
    | error f =>
      rw [Call.result_of_error hhit hrendering,
        Call.result_of_error (hsame.trans hhit) hrendering]
      rfl
    | ok output =>
      have hkept : q.kept? r c = some output := by
        rw [Call.kept?_of_no_hit hhit, hrendering]
        rfl
      rw [Call.result_of_ok hhit hrendering, Call.result_of_ok (hsame.trans hhit) hrendering]
      exact congrArg _ (by rw [← h output hkept]; rfl)

/-! ### Calls after one another -/

/-- The call ends as if there were no store, whose failures do not show. -/
structure Transparent (r : Renderer) (c : Caching)
    (answer : ByteArray → String → Except Fault ByteArray) (q : Call) : Prop where
  /-- The result is what the renderer answers. -/
  answers : (q.result r c).1 = answer q.source q.format
  /-- An output counts as given to the store when nothing was found, and a failure never does. -/
  keeps : q.kept? r c =
    if (q.hit? r c).isSome then none else (answer q.source q.format).toOption
  /-- When nothing was found, the call ends where the store ends that was told to keep the output, ... -/
  stored : q.hit? r c = none → ∀ output, answer q.source q.format = .ok output →
    Told [] ((c.store.set (q.key r c) output c.ttl).run (q.rendering r c).2).2 (q.result r c).2
  /-- ... and where the renderer ends when there is no output. -/
  refused : q.hit? r c = none → ∀ f, answer q.source q.format = .error f →
    (q.result r c).2 = (q.rendering r c).2
  /-- After a hit the store is not told anything. -/
  found : (q.hit? r c).isSome → Told [] (q.reading r c).2 (q.result r c).2
  /-- The store is given nothing else. -/
  sets : ∀ set, (∀ data, q.kept? r c = some data →
      set (q.key r c) data c.ttl = c.store.set (q.key r c) data c.ttl) →
    q.result r { c with store := { c.store with set } } = q.result r c
  /-- The renderer is asked for nothing else, and for nothing at all after a hit. -/
  asks : ∀ render, (q.hit? r c = none → render q.source q.format = r.render q.source q.format) →
    q.result { r with render } c = q.result r c
  /-- Without a hit the renderer is asked once. -/
  asked : ∀ note, Records r note → Quiet c.store →
    Traces [] (if (q.hit? r c).isSome then [] else note q.source q.format) q.world
      (q.result r c).2

/-- Calls after one another, with a store that finds only what a call before gave to it under the
same key. Between two calls the world may become any other. -/
inductive Session (r : Renderer) (c : Caching) : List Call → Prop
  | start : Session r c []
  | call {calls : List Call} {q : Call} (before : Session r c calls)
      (faithful : ∀ data, q.hit? r c = some data →
        ∃ p ∈ calls, p.key r c = q.key r c ∧ p.kept? r c = some data) :
      Session r c (calls ++ [q])

/-- What is hashed for the keys of calls. -/
def hashed (r : Renderer) (c : Caching) (v : Version) (calls : List Call) : List ByteArray :=
  calls.flatMap fun q => [q.source, Cache.Keyer.text (q.renderKey r c v)]

section Session

variable {r : Renderer} {c : Caching} {v : Version}
  {answer : ByteArray → String → Except Fault ByteArray} {scopes : List String} {calls : List Call}
  (hr : Computes r v answer)

include hr

theorem kept?_eq (q : Call) : q.kept? r c =
    if (q.hit? r c).isSome then none else (answer q.source q.format).toOption := by
  rw [Call.kept?, Call.rendering, hr.render]

/-- Calls with the same key are about the same request. -/
theorem request_eq_of_key_eq (hkeyer : c.keyer = Cache.Keyer.withinScopes c.digest scopes)
    (hdigest : Set.InjOn c.digest {b | b ∈ hashed r c v calls}) {p q : Call} (hp : p ∈ calls)
    (hq : q ∈ calls) (h : p.key r c = q.key r c) : p.source = q.source ∧ p.format = q.format := by
  have hmem : ∀ x ∈ calls, x.source ∈ hashed r c v calls ∧
      Cache.Keyer.text (x.renderKey r c v) ∈ hashed r c v calls := fun x hx =>
    ⟨List.mem_flatMap.2 ⟨x, hx, by simp⟩, List.mem_flatMap.2 ⟨x, hx, by simp⟩⟩
  rw [Call.key_eq hr, Call.key_eq hr, hkeyer] at h
  have hkey : p.renderKey r c v = q.renderKey r c v :=
    Cache.Keyer.eq_of_withinScopes_eq (hdigest (hmem p hp).2 (hmem q hq).2) h
  have hsource : c.digest p.source = c.digest q.source :=
    congrArg Cache.RenderKey.sourceHash hkey
  exact ⟨hdigest (hmem p hp).1 (hmem q hq).1 hsource, congrArg Cache.RenderKey.format hkey⟩

/-- A call is transparent when what it finds is the answer. -/
theorem transparent_of_hit {q : Call}
    (h : ∀ data, q.hit? r c = some data → answer q.source q.format = .ok data) :
    Transparent r c answer q where
  answers := by
    cases hhit : q.hit? r c with
    | some data => rw [Call.result_of_hit hhit, h data hhit]
    | none =>
      have hanswer : (q.rendering r c).1 = answer q.source q.format := hr.render _ _ _
      cases hrendering : (q.rendering r c).1 with
      | error f => rw [Call.result_of_error hhit hrendering, ← hanswer, hrendering]
      | ok output => rw [Call.result_of_ok hhit hrendering, ← hanswer, hrendering]
  keeps := kept?_eq hr q
  stored hhit output hanswer := by
    have hrendering : (q.rendering r c).1 = .ok output := (hr.render _ _ _).trans hanswer
    rw [Call.result_of_ok hhit hrendering]
    obtain ⟨kept, w⟩ := (c.store.set (q.key r c) output c.ttl).run (q.rendering r c).2
    cases kept with
    | ok _ => exact told_report _ w
    | error f => exact told_log _ w
  refused hhit f hanswer := by
    have hrendering : (q.rendering r c).1 = .error f := (hr.render _ _ _).trans hanswer
    rw [Call.result_of_error hhit hrendering]
  found hhit := by
    obtain ⟨data, hdata⟩ := Option.isSome_iff_exists.1 hhit
    rw [Call.result_of_hit hdata]
    exact told_report _ _
  sets _ hset := result_congr_set hset
  asks _ hrender := result_congr_render hrender
  asked _ hnote hquiet := traces_result hnote hquiet q

/-- What a faithful store finds is the answer, since the call that stored it was about the same
request. -/
theorem answer_of_hit (hkeyer : c.keyer = Cache.Keyer.withinScopes c.digest scopes)
    (hdigest : Set.InjOn c.digest {b | b ∈ hashed r c v calls}) {p q : Call} (hp : p ∈ calls)
    (hq : q ∈ calls) (hkey : p.key r c = q.key r c) {data : ByteArray}
    (hkept : p.kept? r c = some data) : answer q.source q.format = .ok data := by
  obtain ⟨hsource, hformat⟩ := request_eq_of_key_eq hr hkeyer hdigest hp hq hkey
  rw [kept?_eq hr] at hkept
  split_ifs at hkept
  rw [← hsource, ← hformat]
  cases hanswer : answer p.source p.format with
  | ok output =>
    rw [hanswer] at hkept
    exact congrArg Except.ok (Option.some.inj hkept)
  | error f =>
    rw [hanswer] at hkept
    cases hkept

end Session

end Render
end ApiDiagrams
