import ApiDiagrams.CommandLine.Run
import ApiDiagrams.Proofs.Config.Load
import ApiDiagrams.Proofs.Files.Extension
import ApiDiagrams.Proofs.Render.Frame

/-!
# Rendering one file

A source file is laid out and the image is written beside it, under the same name with the format for
its extension. Besides the image, only the store is touched. When the format is the extension of the
source already, the image takes its place.

* `imagePath_eq_iff`, `placeOf_imagePath_eq_iff`: when a path or a place stays the same;
* `Session.storeDir`, `Session.entryPlace?`: the store of a command and its entry there;
* `Session.spares_engine`: what an engine leaves alone;
* `Session.StoreOpened`, `Session.kept_render`: opening the store, and rendering with it;
* `Session.RenderEnd`: the ways in which the command ends;
* `Session.renderFile_frame`: what it leaves behind.
-/

namespace ApiDiagrams

/-! ### Files that are named after others -/

namespace Validation

variable {format : String}

theorem isFormatChar_of_checkFormat (h : checkFormat (Text.Raw.ofString format) = .ok ()) {c : Char}
    (hc : c ∈ format.toList) : isFormatChar c = true ∨ c = ':' := by
  by_cases hcolon : c = ':'
  · exact Or.inr hcolon
  · left
    have htext : (Text.Raw.ofString format).text? = some format := Text.Raw.text?_eq_some_iff.2 rfl
    unfold checkFormat at h
    split_ifs at h with hempty hformat
    rw [htext, Option.any_some, Bool.not_eq_true, Bool.not_eq_false'] at hformat
    obtain ⟨piece, hp, hmem⟩ := exists_mem_splitOn hc hcolon
    simp only [isFormat, Bool.and_eq_true, List.all_eq_true] at hformat
    exact (hformat.1 piece hp).2 c hmem

theorem ne_empty_of_checkFormat (h : checkFormat (Text.Raw.ofString format) = .ok ()) :
    format ≠ "" := by
  rintro rfl
  exact absurd h (by decide)

theorem isEnding_of_checkFormat (h : checkFormat (Text.Raw.ofString format) = .ok ()) :
    Path.IsEnding format := by
  constructor
  · intro hdot
    rcases isFormatChar_of_checkFormat h hdot with hchar | hcolon
    · exact absurd hchar (by decide)
    · exact absurd hcolon (by decide)
  · exact slash_not_mem_of_checkFormat h

end Validation

namespace CommandLine
namespace Session

open FileTree (placeOf)

variable {input format : String}

/-- The name of a file with a format for its extension. -/
theorem isName_with_format (h : Validation.checkFormat (Text.Raw.ofString format) = .ok ())
    {stem : String} (hstem : '/' ∉ stem.toList) : Path.IsName (stem ++ "." ++ format) := by
  obtain ⟨hdot, hslash⟩ := Validation.isEnding_of_checkFormat h
  have hne := Validation.ne_empty_of_checkFormat h
  -- the last character is none of a name of dots
  have hlast : ∃ c, (stem ++ "." ++ format).toList.getLast? = some c ∧ c ≠ '.' := by
    have hlist : format.toList ≠ [] := fun h0 => hne (String.toList_inj.1 h0)
    refine ⟨format.toList.getLast hlist, ?_, fun heq => hdot (heq ▸ List.getLast_mem hlist)⟩
    rw [String.toList_append, List.getLast?_append, List.getLast?_eq_some_getLast hlist]
    rfl
  have hother : ∀ other : String, (∀ c ∈ other.toList, c = '.') → stem ++ "." ++ format ≠ other := by
    rintro other hdots rfl
    obtain ⟨c, hc, hnot⟩ := hlast
    exact hnot (hdots c (List.mem_of_getLast? hc))
  refine ⟨⟨hother "" (by simp), ?_⟩, hother "." (by simp), hother ".." (by simp)⟩
  simp only [String.toList_append, List.mem_append, not_or]
  exact ⟨⟨hstem, by decide⟩, hslash⟩

theorem imagePath_eq (format : String) {front stem ext : String}
    (h : Path.Parts input front stem ext) :
    imagePath input format = front ++ (stem ++ "." ++ format) := by
  rw [imagePath, h.withoutExtension_eq, String.append_assoc, String.append_assoc,
    String.append_assoc]

/-- The path with a format for its extension has the format for its extension, and is the same
otherwise. -/
theorem parts_imagePath (h : Validation.checkFormat (Text.Raw.ofString format) = .ok ()) :
    Path.extension (imagePath input format) = "." ++ format ∧
      Path.withoutExtension (imagePath input format) = Path.withoutExtension input := by
  obtain ⟨front, stem, ext, hparts⟩ := Path.exists_parts input
  have himage : Path.Parts (imagePath input format) front stem ("." ++ format) := by
    refine ⟨?_, hparts.before, hparts.no_slash,
      Or.inr ⟨format, rfl, Validation.isEnding_of_checkFormat h⟩⟩
    rw [imagePath_eq format hparts]
    simp only [String.append_assoc]
  exact ⟨himage.extension_eq, by rw [himage.withoutExtension_eq, hparts.withoutExtension_eq]⟩

theorem imagePath_eq_iff : imagePath input format = input ↔
    Path.extension input = "." ++ format := by
  obtain ⟨front, stem, ext, hparts⟩ := Path.exists_parts input
  rw [imagePath_eq format hparts, hparts.extension_eq, hparts.text, ← String.toList_inj,
    ← String.toList_inj]
  simp [eq_comm]

/-- The place of the image, beside that of the source. -/
theorem placeOf_imagePath (h : Validation.checkFormat (Text.Raw.ofString format) = .ok ())
    {front stem ext : String} (hparts : Path.Parts input front stem ext) :
    placeOf (imagePath input format) = placeOf front ++ [stem ++ "." ++ format] := by
  have hname := isName_with_format h hparts.no_slash
  rw [imagePath_eq format hparts, FileTree.placeOf_front hparts.before hname.piece,
    FileTree.advance_name _ hname]

/-- The image takes the place of its source exactly when the format was the extension already. -/
theorem placeOf_imagePath_eq_iff (h : Validation.checkFormat (Text.Raw.ofString format) = .ok ()) :
    placeOf (imagePath input format) = placeOf input ↔
      Path.extension input = "." ++ format := by
  constructor
  · intro hplace
    obtain ⟨front, stem, ext, hparts⟩ := Path.exists_parts input
    have hname := isName_with_format h hparts.no_slash
    rw [placeOf_imagePath h hparts] at hplace
    by_cases hbase : stem ++ ext = ""
    · -- the path ends in a slash, and its place is that of what stands before
      obtain rfl : input = front := by
        rw [hparts.text, String.append_assoc, hbase, String.append_empty]
      simpa using congrArg List.length hplace
    · have hpiece : Path.IsPiece (stem ++ ext) := ⟨hbase, hparts.slash_not_mem⟩
      have hinput : input = front ++ (stem ++ ext) := by rw [hparts.text, String.append_assoc]
      rw [hinput, FileTree.placeOf_front hparts.before hpiece] at hplace
      have heq := (FileTree.advance_eq_concat_iff hname).1 hplace.symm
      rw [hparts.extension_eq]
      rw [← String.toList_inj] at heq ⊢
      simpa using heq
  · intro hext
    rw [imagePath_eq_iff.2 hext]

/-- Nothing stands in the place of an image from the start. -/
theorem standing?_imagePath (h : Validation.checkFormat (Text.Raw.ofString format) = .ok ()) :
    FileTree.standing? (placeOf (imagePath input format)) = none := by
  obtain ⟨front, stem, ext, hparts⟩ := Path.exists_parts input
  have hname := isName_with_format h hparts.no_slash
  have hdot : '.' ∈ (stem ++ "." ++ format).toList := by simp
  rw [placeOf_imagePath h hparts]
  refine FileTree.standing?_concat (fun hmem => ?_) _
  have hdots : ∀ other ∈ ["..", "/", "dev", "tmp", "null"], '.' ∈ other.toList → other = ".." := by
    decide
  exact hname.ne_dots (hdots _ hmem hdot)

/-! ### The store of a command -/

section Store

open Cache (FileStore)
open FileTree (KeptFor OnTheWay)

variable {s : Session} {noCache : Bool} {w : World} {p : Place}

/-- How a session keeps outputs in a store. -/
def caching (s : Session) (store : Cache.Store) : Render.Caching where
  store
  digest := Sha256.hex
  keyer := keyer s.config
  ttl := s.config.cache.ttl

/-- The directory of the store that a command uses, if it uses one. -/
def storeDir (s : Session) (noCache : Bool) (w : World) : Option String :=
  if noCache = true ∨ s.config.cache.backend = "none" ∨ s.config.cache.backend = "redis" then none
  else (s.config.cacheDir.run w).1

/-- The place of the entry that a command reads and writes in its store, if it uses one. -/
def entryPlace? (s : Session) (noCache : Bool) (w : World) (source : ByteArray) (format : String) :
    Option Place :=
  (s.storeDir noCache w).map fun dir => FileStore.entryPlace ⟨dir, Sha256.hex⟩
    (Render.Call.key (s.engine.run w).1 (s.caching .null)
      ⟨((s.renderer noCache).run w).2, source, format⟩)

/-- A place while a store is used, or none. -/
def Kept : (dir : Option String) → Place → FileTree → FileTree → Prop
  | none, p, t, t' => t'.get? p = t.get? p
  | some dir, p, t, t' => KeptFor dir p t t'

namespace Kept

variable {dir : Option String} {t t' t'' : FileTree}

theorem of_eq (h : t'.get? p = t.get? p) : Kept dir p t t' := by
  cases dir with
  | none => exact h
  | some dir => exact KeptFor.of_eq h

theorem trans (h : Kept dir p t t') (h' : Kept dir p t' t'') : Kept dir p t t'' := by
  cases dir with
  | none => exact Eq.trans h' h
  | some dir => exact KeptFor.trans h h'

theorem file {content : ByteArray} (h : Kept dir p t t') (hp : t.get? p = some (.file content)) :
    t'.get? p = some (.file content) := by
  cases dir with
  | none => exact Eq.trans h hp
  | some dir => exact KeptFor.file h hp

theorem elsewhere (h : Kept dir p t t') (hp : ∀ d, dir = some d → ¬ FileTree.placeOf d <+: p) :
    t'.get? p = t.get? p ∨ t.get? p = none ∧ t'.get? p = some .directory ∧
      ∃ d, dir = some d ∧ OnTheWay d p := by
  cases dir with
  | none => exact Or.inl h
  | some dir =>
    refine (KeptFor.elsewhere h (hp dir rfl)).imp_right ?_
    rintro ⟨hnone, hdir, hway⟩
    exact ⟨hnone, hdir, dir, rfl, hway⟩

end Kept

/-- Choosing an engine changes no more than what is known of versions. -/
theorem snd_engine (s : Session) (w : World) :
    ∃ detected, (s.engine.run w).2 = { w with detected } := by
  unfold engine
  cases s.replacement with
  | some r => exact ⟨w.detected, rfl⟩
  | none =>
    dsimp only
    by_cases hembedded : s.config.render.engine = "embedded"
    · rw [if_pos hembedded]
      exact ⟨w.detected, rfl⟩
    · rw [if_neg hembedded, Effect.run_bind]
      by_cases hexec : s.config.render.engine = "exec"
      · rw [if_pos hexec]
        exact ⟨_, rfl⟩
      · rw [if_neg hexec]
        exact ⟨_, rfl⟩

/-- An engine that the settings choose touches no more than the programs it runs. -/
theorem spares_engine (hr : ∀ r, s.replacement = some r → r.Spares p)
    (hp : s.machine.programs.Spares p) (w : World) : (s.engine.run w).1.Spares p := by
  have hlibrary := Render.Renderer.spares_embedded hp s.machine.library
  unfold engine
  cases hreplacement : s.replacement with
  | some r => exact hr r hreplacement
  | none =>
    have htool := Render.Renderer.spares_command hp s.config.render.command w
    dsimp only
    by_cases hembedded : s.config.render.engine = "embedded"
    · rw [if_pos hembedded]
      exact hlibrary
    · rw [if_neg hembedded, Effect.run_bind]
      by_cases hexec : s.config.render.engine = "exec"
      · rw [if_pos hexec]
        exact htool
      · rw [if_neg hexec]
        refine Render.Renderer.spares_chain fun r hmem => ?_
        obtain rfl | rfl : r = _ ∨ r = _ := by simpa using hmem
        · exact htool
        · exact hlibrary

theorem fst_cacheDir_congr (c : Config) {w w' : World} (h : w'.env = w.env) :
    (c.cacheDir.run w').1 = (c.cacheDir.run w).1 := by
  have hgiven (name : String) : ((Config.given name).run w').1 = ((Config.given name).run w).1 := by
    change Option.filter _ ((w'.env.lookup name).map _) = Option.filter _ ((w.env.lookup name).map _)
    rw [h]
  have hdir (name fallback : String) : ((Config.userDir name fallback).run w').1 =
      ((Config.userDir name fallback).run w).1 := by
    unfold Config.userDir
    rw [Effect.run_bind, Effect.run_bind, Config.snd_given, Config.snd_given, hgiven name]
    cases ((Config.given name).run w).1 with
    | some place => rfl
    | none =>
      dsimp only
      rw [Effect.run_bind, Effect.run_bind, hgiven "HOME"]
      rfl
  unfold Config.cacheDir
  split_ifs
  · rfl
  · exact hdir _ _

/-- How a command gets its renderer: without a store, with one that keeps nothing, with one on a
server, or after the directory of its store was made, unless that failed. -/
inductive StoreOpened (s : Session) (w : World) :
    Option String → Except Fault Render.Renderer × World → Prop
  | plain {w' : World} (same : w'.files = w.files) : StoreOpened s w none (.ok (s.engine.run w).1, w')
  | idle {w' : World} (same : w'.files = w.files) :
    StoreOpened s w none (.ok ((s.engine.run w).1.cached (s.caching .null)), w')
  | shared {server : Cache.Shared} {w' : World} (same : w'.files = w.files) :
    StoreOpened s w none (.ok ((s.engine.run w).1.cached (s.caching server.store)), w')
  | refused {dir : String} {f : Fault} {w' : World}
      (made : FileTree.Made (Path.fronts dir) w.files w'.files) :
    StoreOpened s w (some dir) (.error f, w')
  | kept {dir : String} {w' : World} (named : dir ≠ "")
      (made : FileTree.Made (Path.fronts dir) w.files w'.files) :
    StoreOpened s w (some dir)
      (.ok ((s.engine.run w).1.cached (s.caching (FileStore.store ⟨dir, Sha256.hex⟩))), w')

theorem opened_renderer (s : Session) (noCache : Bool) (w : World) :
    StoreOpened s w (s.storeDir noCache w) ((s.renderer noCache).run w) := by
  obtain ⟨detected, hengine⟩ := s.snd_engine w
  have hfiles : (s.engine.run w).2.files = w.files := by rw [hengine]
  have hdir : (s.config.cacheDir.run (s.engine.run w).2).1 = (s.config.cacheDir.run w).1 :=
    fst_cacheDir_congr _ (by rw [hengine])
  unfold renderer storeDir
  rw [Effect.run_bind]
  by_cases hplain : noCache = true ∨ s.config.cache.backend = "none"
  · have hcond : (noCache || decide (s.config.cache.backend = "none")) = true := by simpa using hplain
    rw [if_pos hcond, if_pos (hplain.imp_right Or.inl)]
    exact .plain hfiles
  · have hcond : ¬ (noCache || decide (s.config.cache.backend = "none")) = true := by
      simpa using hplain
    rw [if_neg hcond, Effect.run_bind]
    rw [not_or] at hplain
    unfold store
    by_cases hredis : s.config.cache.backend = "redis"
    · have hasked := (Cache.Shared.files_openAt s.machine.servers s.config.cache.redisAddr
        (s.engine.run w).2).trans hfiles
      rw [if_pos hredis, if_pos (Or.inr (Or.inr hredis)), Effect.run_bind]
      cases ((Cache.Shared.openAt s.machine.servers s.config.cache.redisAddr).run
        (s.engine.run w).2).1 with
      | error f => exact .idle ((told_log _ _).files.trans hasked)
      | ok server => exact .shared hasked
    · have hnone : ¬ (noCache = true ∨ s.config.cache.backend = "none" ∨
          s.config.cache.backend = "redis") := by
        simp only [not_or]
        exact ⟨hplain.1, hplain.2, hredis⟩
      rw [if_neg hredis, if_neg hplain.2, if_neg hnone, Effect.run_bind, Config.snd_cacheDir, ← hdir]
      cases (s.config.cacheDir.run (s.engine.run w).2).1 with
      | none => exact .idle hfiles
      | some dir =>
        obtain ⟨hmade, hopened⟩ := FileStore.openAt_run Sha256.hex dir (s.engine.run w).2
        rw [hfiles] at hmade
        dsimp only
        rw [Effect.run_bind]
        cases hopen : ((FileStore.openAt Sha256.hex dir).run (s.engine.run w).2).1 with
        | error f => exact .refused hmade
        | ok opened =>
          obtain ⟨rfl, hnamed⟩ := hopened opened hopen
          exact .kept hnamed hmade

theorem StoreOpened.kept_opening {dir : Option String} {out : Except Fault Render.Renderer × World}
    (h : StoreOpened s w dir out) : Kept dir p w.files out.2.files := by
  cases h with
  | plain same => exact congrArg (·.get? p) same
  | idle same => exact congrArg (·.get? p) same
  | shared same => exact congrArg (·.get? p) same
  | refused made => exact KeptFor.of_made made
  | kept named made => exact KeptFor.of_made made

/-- Rendering, with the store of the command or without one, touches no file that was there but its
own entry. -/
theorem kept_render {r : Render.Renderer} {w₁ : World} {source : ByteArray} {format : String}
    (hopen : (s.renderer noCache).run w = (.ok r, w₁)) (hp : (s.engine.run w).1.Spares p)
    (hentry : s.entryPlace? noCache w source format ≠ some p) :
    Kept (s.storeDir noCache w) p w.files ((r.render source format).run w₁).2.files := by
  have hopened := s.opened_renderer noCache w
  have hopening : Kept (s.storeDir noCache w) p w.files w₁.files := by
    have hkept := hopened.kept_opening (p := p)
    rwa [hopen] at hkept
  refine hopening.trans ?_
  rw [hopen] at hopened
  unfold entryPlace? at hentry
  rw [hopen] at hentry
  generalize s.storeDir noCache w = dir at hopened hentry
  cases hopened with
  | plain same => exact hp.render source format w₁
  | idle same =>
    exact Render.Call.get?_result_of_spares (q := ⟨w₁, source, format⟩) (Cache.Store.spares_null p) hp
  | @shared server _ same =>
    exact Render.Call.get?_result_of_spares (q := ⟨w₁, source, format⟩) (server.spares_store p) hp
  | kept named made =>
    refine Render.Call.keptFor_result (q := ⟨w₁, source, format⟩)
      (FileStore.isProper_hex named) rfl hp fun heq => hentry ?_
    rw [heq]
    rfl

end Store

/-! ### The ways in which the command ends -/

section Ends

variable {s : Session} {broken : Option Break} {input output format : String} {noCache : Bool}
  {vs : Values} {w : World}

theorem files_logDone (startedAt : ℤ) (message : String) (w : World) :
    ((logDone startedAt message).run w).2.files = w.files := by
  unfold logDone
  rw [Effect.run_bind, Effect.get_run]
  exact (told_log _ _).files

/-- What becomes of an image that is written: all of it is there, some of it is when the operating
system breaks off, or nothing has changed. -/
inductive Stored (broken : Option Break) (output : String) (image : ByteArray) (t : FileTree) :
    Except Fault Unit → FileTree → Prop
  | whole {t' : FileTree} (sound : broken = none) (writes : t.write output image = .ok t') :
    Stored broken output image t (.ok ()) t'
  | cut {f : Fault} {n : ℕ} {t' : FileTree} (breaks : broken = some ⟨f, some n⟩)
      (writes : t.write output (image.extract 0 n) = .ok t') :
    Stored broken output image t (.error f) t'
  | nothing {f : Fault} : Stored broken output image t (.error f) t

theorem stored_writeImage (broken : Option Break) (output : String) (image : ByteArray) (w : World) :
    Stored broken output image w.files ((writeImage broken output image).run w).1
      ((writeImage broken output image).run w).2.files := by
  unfold writeImage
  dsimp only
  rcases broken with _ | ⟨f, _ | n⟩
  · dsimp only
    rw [Effect.run_bind]
    cases hwrite : w.files.write output image with
    | error e =>
      rw [Effect.onFiles_run_error hwrite]
      exact .nothing
    | ok t =>
      rw [Effect.onFiles_run_ok hwrite]
      exact .whole rfl hwrite
  · exact .nothing
  · dsimp only
    rw [Effect.run_bind, Effect.run_bind]
    cases hwrite : w.files.write output (image.extract 0 n) with
    | error e =>
      rw [Effect.onFiles_run_error hwrite]
      exact .nothing
    | ok t =>
      rw [Effect.onFiles_run_ok hwrite]
      exact .cut rfl hwrite

/-- The ways in which the command ends, with the files that it leaves behind. -/
inductive RenderEnd (s : Session) (broken : Option Break) (input output format : String)
    (noCache : Bool) (w : World) : Except Fault Unit → FileTree → Prop
  /-- The format is none, or the source cannot be read. -/
  | refused {f : Fault} : RenderEnd s broken input output format noCache w (.error f) w.files
  /-- The store cannot be opened. -/
  | unopened {f : Fault} {w₁ : World} (opens : (s.renderer noCache).run w = (.error f, w₁)) :
    RenderEnd s broken input output format noCache w (.error f) w₁.files
  /-- The renderer fails. -/
  | unrendered {source : ByteArray} {r : Render.Renderer} {w₁ : World} {f : Fault}
      (reads : w.files.read input = .ok source) (opens : (s.renderer noCache).run w = (.ok r, w₁))
      (fails : ((r.render source format).run w₁).1 = .error f) :
    RenderEnd s broken input output format noCache w (.error f)
      ((r.render source format).run w₁).2.files
  /-- The image is written, as far as it can be. -/
  | rendered {source image : ByteArray} {r : Render.Renderer} {w₁ : World} {t : FileTree}
      {written result : Except Fault Unit}
      (valid : Validation.checkFormat (Text.Raw.ofString format) = .ok ())
      (reads : w.files.read input = .ok source) (opens : (s.renderer noCache).run w = (.ok r, w₁))
      (renders : ((r.render source format).run w₁).1 = .ok image)
      (stores : Stored broken output image ((r.render source format).run w₁).2.files written t)
      (result_iff : result = .ok () ↔ written = .ok ()) :
    RenderEnd s broken input output format noCache w result t

theorem renderEnd_renderSource {r : Render.Renderer} {source : ByteArray} {w₁ : World}
    (hvalid : Validation.checkFormat (Text.Raw.ofString format) = .ok ())
    (hread : w.files.read input = .ok source) (hopen : (s.renderer noCache).run w = (.ok r, w₁)) :
    RenderEnd s broken input output format noCache w
      ((s.renderSource broken r input output format source).run w₁).1
      ((s.renderSource broken r input output format source).run w₁).2.files := by
  unfold renderSource
  rw [Effect.run_bind, Effect.get_run]
  dsimp only
  rw [Effect.run_bind]
  cases hrender : ((r.render source format).run w₁).1 with
  | error f => exact .unrendered hread hopen hrender
  | ok image =>
    have hlog := files_logDone w₁.now ("Rendered " ++ input) ((r.render source format).run w₁).2
    dsimp only
    rw [Effect.run_bind, Effect.run_bind]
    generalize ((logDone w₁.now ("Rendered " ++ input)).run
      ((r.render source format).run w₁).2).2 = w₂ at hlog ⊢
    have hstored := stored_writeImage broken output image w₂
    rw [hlog] at hstored
    rcases hwrite : (writeImage broken output image).run w₂ with ⟨f | ⟨⟩, w₃⟩
    · rw [hwrite] at hstored
      exact .rendered hvalid hread hopen hrender hstored (iff_of_false (by rintro ⟨⟩) (by rintro ⟨⟩))
    · rw [hwrite] at hstored
      by_cases hspeaks : s.speaks = true
      · simp only [if_pos hspeaks]
        exact .rendered hvalid hread hopen hrender hstored (by rfl)
      · simp only [if_neg hspeaks]
        exact .rendered hvalid hread hopen hrender hstored (by rfl)

theorem renderEnd_renderFileOn (s : Session) (broken : Option Break) (input : String) (vs : Values)
    (w : World) : RenderEnd s broken input
      (if vs.text "output" ≠ "" then vs.text "output" else imagePath input (s.imageFormat vs))
      (s.imageFormat vs) (vs.switch "no-cache") w
      ((s.renderFileOn broken input vs).run w).1
      ((s.renderFileOn broken input vs).run w).2.files := by
  unfold renderFileOn
  dsimp only
  cases hvalid : Validation.checkFormat (Text.Raw.ofString (s.imageFormat vs)) with
  | error f => exact .refused
  | ok =>
    dsimp only
    rw [Effect.run_bind, Effect.get_run]
    dsimp only
    cases hread : w.files.read input with
    | error e => exact .refused
    | ok source =>
      dsimp only
      rw [Effect.run_bind]
      rcases hopen : (s.renderer (vs.switch "no-cache")).run w with ⟨f | r, w₁⟩
      · exact .unopened hopen
      · exact renderEnd_renderSource hvalid hread hopen

theorem placeOf_prefix_of_entryPlace? {source : ByteArray} {p : Place}
    (h : s.entryPlace? noCache w source format = some p) :
    ∃ dir, s.storeDir noCache w = some dir ∧ placeOf dir <+: p := by
  obtain ⟨dir, hdir, rfl⟩ := Option.map_eq_some_iff.1 h
  refine ⟨dir, hdir, ?_⟩
  rw [Cache.FileStore.entryPlace, List.append_assoc]
  exact List.prefix_append _ _

/-- Whatever the end, a place other than that of the image stays as it was but for the store. On an
end that is no success, nor a write that breaks off, so does the place of the image. -/
theorem RenderEnd.kept {p : Place} {result : Except Fault Unit} {t : FileTree}
    (h : RenderEnd s broken input output format noCache w result t)
    (hp : (s.engine.run w).1.Spares p)
    (hentry : ∀ source, w.files.read input = .ok source →
      s.entryPlace? noCache w source format ≠ some p)
    (hplace : (Validation.checkFormat (Text.Raw.ofString format) = .ok () → p ≠ placeOf output) ∨
      broken = none ∧ result ≠ .ok ()) :
    Kept (s.storeDir noCache w) p w.files t := by
  cases h with
  | refused => exact Kept.of_eq rfl
  | unopened opens =>
    have hopened := (s.opened_renderer noCache w).kept_opening (p := p)
    rwa [opens] at hopened
  | unrendered reads opens fails => exact kept_render opens hp (hentry _ reads)
  | rendered valid reads opens renders stores result_iff =>
    refine (kept_render opens hp (hentry _ reads)).trans (Kept.of_eq ?_)
    cases stores with
    | whole sound writes =>
      have hne : p ≠ placeOf output := by
        rcases hplace with hother | ⟨-, hfails⟩
        · exact hother valid
        · exact absurd (result_iff.2 rfl) hfails
      obtain ⟨-, rfl⟩ := FileTree.write_eq_ok_iff.1 writes
      rw [FileTree.get?_put, if_neg fun heq => hne heq.1]
    | cut breaks writes =>
      have hne : p ≠ placeOf output := by
        rcases hplace with hother | ⟨hsound, -⟩
        · exact hother valid
        · rw [breaks] at hsound
          cases hsound
      obtain ⟨-, rfl⟩ := FileTree.write_eq_ok_iff.1 writes
      rw [FileTree.get?_put, if_neg fun heq => hne heq.1]
    | nothing => rfl

/-- On success the image that the renderer answered is there. -/
theorem RenderEnd.image {t : FileTree}
    (h : RenderEnd s broken input (imagePath input format) format noCache w (.ok ()) t) :
    broken = none ∧ ∃ source image r w₁, w.files.read input = .ok source ∧
      (s.renderer noCache).run w = (.ok r, w₁) ∧ ((r.render source format).run w₁).1 = .ok image ∧
      t.read (imagePath input format) = .ok image := by
  cases h with
  | rendered valid reads opens renders stores result_iff =>
    obtain rfl := result_iff.1 rfl
    cases stores with
    | whole sound writes =>
      exact ⟨sound, _, _, _, _, reads, opens, renders,
        FileTree.read_of_write writes (standing?_imagePath valid)⟩

end Ends

/-! ### What the command leaves behind -/

/-- **What rendering a file leaves behind.** The image goes to the path of the source with the format
for its extension, unless another path is chosen, and this is the path of the source exactly when the
format is its extension already. Outside the directory of the store no other file changes, appears or
goes, and only directories on the way to the store are made; on an error the image is not written
either, unless the operating system breaks the write off. On success the image is what the renderer
answered. The source stays as it was unless its extension is the format, or it is the very entry of
this rendering in the store. All this is about places that the engine itself leaves alone. -/
theorem renderFile_frame (s : Session) (broken : Option Break) (input : String) (vs : Values)
    (w w' : World) (result : Except Fault Unit) (houtput : vs.text "output" = "")
    (hrun : (s.renderFileOn broken input vs).run w = (result, w')) :
    (∀ p, (s.engine.run w).1.Spares p →
      (∀ dir, s.storeDir (vs.switch "no-cache") w = some dir → ¬ placeOf dir <+: p) →
      p ≠ placeOf (imagePath input (s.imageFormat vs)) ∨ broken = none ∧ result ≠ .ok () →
      w'.files.get? p = w.files.get? p ∨
        w.files.get? p = none ∧ w'.files.get? p = some .directory ∧
          ∃ dir, s.storeDir (vs.switch "no-cache") w = some dir ∧ FileTree.OnTheWay dir p) ∧
    (result = .ok () → broken = none ∧ ∃ source image r w₁, w.files.read input = .ok source ∧
      (s.renderer (vs.switch "no-cache")).run w = (.ok r, w₁) ∧
      ((r.render source (s.imageFormat vs)).run w₁).1 = .ok image ∧
      w'.files.read (imagePath input (s.imageFormat vs)) = .ok image) ∧
    (Validation.checkFormat (Text.Raw.ofString (s.imageFormat vs)) = .ok () →
      Path.extension (imagePath input (s.imageFormat vs)) = "." ++ s.imageFormat vs ∧
      Path.withoutExtension (imagePath input (s.imageFormat vs)) = Path.withoutExtension input ∧
      (placeOf (imagePath input (s.imageFormat vs)) = placeOf input ↔
        imagePath input (s.imageFormat vs) = input) ∧
      (imagePath input (s.imageFormat vs) = input ↔
        Path.extension input = "." ++ s.imageFormat vs)) ∧
    ∀ source, w.files.read input = .ok source → (s.engine.run w).1.Spares (placeOf input) →
      s.entryPlace? (vs.switch "no-cache") w source (s.imageFormat vs) ≠ some (placeOf input) →
      Path.extension input ≠ "." ++ s.imageFormat vs ∨ broken = none ∧ result ≠ .ok () →
      w'.files.get? (placeOf input) = some (.file source) := by
  have hend := renderEnd_renderFileOn s broken input vs w
  rw [hrun, houtput, if_neg (not_not.2 rfl)] at hend
  refine ⟨fun p hp houtside hplace => ?_, ?_, fun hvalid => ?_, fun source hread hp hentry hext => ?_⟩
  · refine (hend.kept hp (fun source _ heq => ?_) (hplace.imp_left fun hne _ => hne)).elsewhere houtside
    obtain ⟨dir, hdir, hbelow⟩ := placeOf_prefix_of_entryPlace? heq
    exact houtside dir hdir hbelow
  · rintro rfl
    exact hend.image
  · obtain ⟨hextension, hrest⟩ := @parts_imagePath input _ hvalid
    exact ⟨hextension, hrest, (placeOf_imagePath_eq_iff hvalid).trans imagePath_eq_iff.symm,
      imagePath_eq_iff⟩
  · have hfile := (FileTree.read_eq_ok_iff.1 hread).2
    refine (hend.kept hp (fun source' hread' => ?_) (hext.imp_left fun hother hvalid hplace => ?_)).file
      hfile
    · rw [hread] at hread'
      cases hread'
      exact hentry
    · exact hother ((placeOf_imagePath_eq_iff hvalid).1 hplace.symm)

/-- A session with a renderer that knows two formats. -/
def twoFormats : Session where
  config := { cache := { dir := "c" } }
  replacement := some <| .scripted 0 {
    outputs := [("svg", "<svg/>".toUTF8), ("dot", "LAID OUT".toUTF8)] }

/-- The flags for a format, without a store. -/
def formatFlags (format : String) : Values :=
  [("format", .text format), ("no-cache", .switch true)]

/-- A source. -/
def plainSource : ByteArray := "digraph g \x7b\x7d".toUTF8

/-- The source in the working directory. -/
def sourceWorld : World where
  files := ⟨[(["g.dot"], .file plainSource)]⟩

theorem twoFormats_spares (w : World) (p : Place) : (twoFormats.engine.run w).1.Spares p :=
  ⟨fun _ => rfl, fun _ _ _ => rfl⟩

/-- A session with a layout library, and with a store on a server that has nothing yet. -/
def onServer : Session where
  config := { cache := { backend := "redis", redisAddr := "localhost:6379" } }
  machine := {
    programs := fun _ _ _ _ _ => .error .notFound
    library := {
      load := .ok ()
      parse := fun _ => .ok ()
      draw := fun _ _ => .ok "<svg/>".toUTF8 }
    servers := fun _ _ r => match r with
      | .ping | .set .. => .ok ()
      | .get _ => .ok none
      | .delete _ => .ok (0 : ℕ)
      | .scan _ => .ok [] }

theorem onServer_spares (w : World) (p : Place) : (onServer.engine.run w).1.Spares p :=
  spares_engine (by rintro r ⟨⟩) (by rintro _ _ _ _ _ _ _ ⟨⟩) w

theorem source_kept_beside_image : (formatFlags "svg").text "output" = "" ∧
    (∃ w', (twoFormats.renderFileOn none "g.dot" (formatFlags "svg")).run sourceWorld =
        (.ok (), w') ∧
      w'.files.get? (placeOf "g.dot") = some (.file plainSource)) ∧
    ∃ w', (onServer.renderFileOn none "g.dot" [("format", .text "svg")]).run sourceWorld =
        (.ok (), w') ∧
      w'.files.get? (placeOf "g.dot") = some (.file plainSource) ∧
      -- whether it answers, what it has, and the image
      w'.asked.length = 3 := by
  have hread : sourceWorld.files.read "g.dot" = .ok plainSource := by decide +kernel
  have hext : Path.extension "g.dot" ≠ "." ++ "svg" := by decide +kernel
  have hentry (s : Session) (noCache : Bool) (hdir : s.storeDir noCache sourceWorld = none)
      (source : ByteArray) (format : String) :
      s.entryPlace? noCache sourceWorld source format ≠ some (placeOf "g.dot") := by
    intro hplace
    obtain ⟨dir, hsome, -⟩ := placeOf_prefix_of_entryPlace? hplace
    rw [hdir] at hsome
    cases hsome
  refine ⟨by decide, ⟨_, Prod.ext ?_ rfl, ?_⟩, _, Prod.ext ?_ rfl, ?_, ?_⟩
  · decide +kernel
  · obtain ⟨-, -, -, hsource⟩ := renderFile_frame twoFormats none "g.dot" (formatFlags "svg")
      sourceWorld _ _ (by decide) rfl
    exact hsource _ hread (twoFormats_spares _ _) (hentry _ _ rfl _ _) (Or.inl hext)
  · decide +kernel
  · obtain ⟨-, -, -, hsource⟩ := renderFile_frame onServer none "g.dot" [("format", .text "svg")]
      sourceWorld _ _ (by decide) rfl
    exact hsource _ hread (onServer_spares _ _) (hentry _ _ rfl _ _) (Or.inl hext)
  · decide +kernel

/-- An image in the format `dot` takes the place of the source. -/
theorem source_lost_to_its_image : ¬ ∀ (s : Session) (input : String) (vs : Values) (w : World)
    (source : ByteArray), vs.text "output" = "" → (∀ p, (s.engine.run w).1.Spares p) →
      w.files.read input = .ok source →
      ((s.renderFile input vs).run w).2.files.get? (placeOf input) = some (.file source) := by
  intro h
  have hkept := h twoFormats "g.dot" (formatFlags "dot") sourceWorld plainSource (by decide)
    (twoFormats_spares _) (by decide +kernel)
  have hlost : ((twoFormats.renderFile "g.dot" (formatFlags "dot")).run sourceWorld).2.files.get?
      (placeOf "g.dot") = some (.file "LAID OUT".toUTF8) := by decide +kernel
  rw [hlost] at hkept
  exact absurd hkept (by decide +kernel)

end Session
end CommandLine
end ApiDiagrams
