import ApiDiagrams.Preview
import ApiDiagrams.Proofs.Files.Below

/-!
# Served files stay below their directory

The check of a path looks at its characters, and the rules of joining look at its components. A path
that passes leads on from every directory that it is joined to, and the name of a served file makes
at most one step.

The paths of the operating system are bytes. Their rules only know the slash and the dot, so they
are read here with one character per byte, whatever the bytes are.

* `Validation.chars_of_checkPath`: what a path that passes does not have;
* `Validation.forward_of_checkPath`: bytes that pass lead forward;
* `Preview.isFileName_of_status`: a name that is not refused lies in the directory itself;
* `Preview.paths_stay_below`: accepted paths and served files stay below the directory.
-/

namespace ApiDiagrams
namespace Validation

open ApiDiagrams.Path Text

/-- A path that passes has characters, does not start at the root and has no two dots in a row. -/
theorem chars_of_checkPath {path : Raw} (h : checkPath path = .ok ()) :
    path.lossy ≠ "" ∧ ¬ ['/'] <+: path.lossy.toList ∧ ¬ ['.', '.'] <:+: path.lossy.toList := by
  simp only [checkPath] at h
  split_ifs at h with hempty hsize hcontrol hslash hdots hback
  refine ⟨fun h0 => hempty ?_, ?_, ?_⟩
  · rw [h0]
    rfl
  · rwa [← startsWith_iff]
  · rwa [← contains_iff]

/-- Text that passes leads forward. -/
theorem forward_of_checkPath_text {path : String} (h : checkPath path = .ok ()) :
    Forward path := by
  obtain ⟨hne, hslash, hdots⟩ := chars_of_checkPath h
  rw [Raw.lossy_ofString] at hne hslash hdots
  exact forward_of_chars hne hslash hdots

/-- Bytes that pass lead forward. -/
theorem forward_of_checkPath {path : ByteArray} (h : checkPath (.ofBytes path) = .ok ()) :
    Forward (spread path) := by
  obtain ⟨hne, hslash, hdots⟩ := chars_of_checkPath h
  refine forward_of_chars (fun h0 => hne ?_) (fun hpre => hslash ?_) fun hin => hdots ?_
  · exact lossy_eq_empty h0
  · exact prefix_lossy (by simp) hpre
  · exact infix_lossy (by simp) hin

end Validation

namespace Preview

open ApiDiagrams.Path Text

variable {files : FileTree} {dir : String}

theorem isFileName_iff {name : Raw} :
    isFileName name = true ↔ Validation.checkPath name = .ok () ∧ .char '/' ∉ name.units := by
  cases h : Validation.checkPath name <;> simp [isFileName, h, Except.isOk, Except.toBool]

/-- Only a name that lies in the directory itself is not refused. -/
theorem isFileName_of_status {name : Raw} (h : (serveFile files dir name).status ≠ 400) :
    isFileName name = true := by
  by_contra hname
  exact h (by simp [serveFile, hname, invalidName, plainAnswer])

/-- What is answered for a name that is not refused: the file at one path, if there is one. -/
theorem serveFile_eq {name : String} (h : isFileName name = true) :
    serveFile files dir name = match files.read (join [dir, name]) with
      | .ok content => { status := 200, body := .bytes content }
      | .error _ => notFound := by
  have htext : (Raw.ofString name).text? = some name := Raw.text?_eq_some_iff.2 rfl
  simp only [serveFile, h, htext, Bool.not_true, Bool.false_eq_true, if_false, Option.map_some]
  cases files.read (join [dir, name]) <;> rfl

/-- **Paths stay below.** Bytes that pass, joined to a directory, stay at or below it. A name that is
not refused, joined to a directory, stays at it or directly in it: as bytes, whatever they are and
whatever the directory is, and as text, where the answer is told by the file of the joined path. -/
theorem paths_stay_below :
    (∀ base path : ByteArray, Validation.checkPath (.ofBytes path) = .ok () →
      ∃ more, Extends (spread base) (join [spread base, spread path]) more) ∧
    (∀ (files : FileTree) (dir : String) (name : ByteArray),
      (serveFile files dir (.ofBytes name)).status ≠ 400 → ∀ base : ByteArray,
        ∃ more, more.length ≤ 1 ∧ Extends (spread base) (join [spread base, spread name]) more) ∧
    (∀ (files : FileTree) (dir name : String), (serveFile files dir name).status ≠ 400 →
      (∃ more, more.length ≤ 1 ∧ Extends dir (join [dir, name]) more) ∧
      serveFile files dir name = match files.read (join [dir, name]) with
        | .ok content => { status := 200, body := .bytes content }
        | .error _ => notFound) := by
  refine ⟨fun base path h => ?_, fun files dir name h base => ?_, fun files dir name h => ?_⟩
  · exact ⟨_, (Validation.forward_of_checkPath h).extends_join _⟩
  · obtain ⟨hcheck, hunits⟩ := isFileName_iff.1 (isFileName_of_status h)
    have hslash : '/' ∉ (spread name).toList := fun hmem =>
      hunits ((List.singleton_infix_iff _ _).1
        (infix_units (w := ['/']) (by simp) ((List.singleton_infix_iff _ _).2 hmem)))
    exact ⟨_, length_steps_le hslash, (Validation.forward_of_checkPath hcheck).extends_join _⟩
  · have hname := isFileName_of_status h
    obtain ⟨hcheck, hunits⟩ := isFileName_iff.1 hname
    have hslash : '/' ∉ name.toList := by simpa [Raw.ofString] using hunits
    exact ⟨⟨_, length_steps_le hslash,
      (Validation.forward_of_checkPath_text hcheck).extends_join _⟩, serveFile_eq hname⟩

/-- A page in a directory next to the working directory, with a dot in its path, and a page whose
name has a stray byte. -/
theorem page_stays_below :
    let path : ByteArray := ⟨#[0x67, 0x2F, 0x2E, 0x2F, 0x61]⟩
    let base : ByteArray := ⟨#[0x2E, 0x2E]⟩
    let name : ByteArray := ⟨#[0x61, 0xFF]⟩
    let files : FileTree := ⟨[(["out"], .directory), (["out", "a.html"], .file .empty)]⟩
    (Validation.checkPath (.ofBytes path) = .ok () ∧
      ∃ more, Extends (spread base) (join [spread base, spread path]) more) ∧
    ((serveFile files "out" (.ofBytes name)).status ≠ 400 ∧
      ∃ more, more.length ≤ 1 ∧ Extends (spread base) (join [spread base, spread name]) more) ∧
    ((serveFile files "out" "a.html").status ≠ 400 ∧
      (∃ more, more.length ≤ 1 ∧ Extends "out" (join ["out", "a.html"]) more) ∧
      serveFile files "out" "a.html" = match files.read (join ["out", "a.html"]) with
        | .ok content => { status := 200, body := .bytes content }
        | .error _ => notFound) := by
  intro path base name files
  have hpath : Validation.checkPath (.ofBytes path) = .ok () := by decide +kernel
  have hbytes : (serveFile files "out" (.ofBytes name)).status ≠ 400 := by decide +kernel
  have htext : (serveFile files "out" "a.html").status ≠ 400 := by decide +kernel
  exact ⟨⟨hpath, paths_stay_below.1 _ _ hpath⟩, ⟨hbytes, paths_stay_below.2.1 _ _ _ hbytes _⟩,
    ⟨htext, paths_stay_below.2.2 _ _ _ htext⟩⟩

end Preview
end ApiDiagrams
