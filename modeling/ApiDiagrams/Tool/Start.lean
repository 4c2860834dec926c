import ApiDiagrams.Text.Raw
import ApiDiagrams.Tool.Script

/-!
# Starting outside programs

Which programs there are and what they do is not for this library to say: whoever runs a program is
given `Programs`. The programs that are used when nothing else is said are scripts and some standard
utilities: a file of the tree, given by a path with a slash, whose first line names a shell, or a
utility, given by its name.

* `Tool.Programs`: programs, by what running them comes to;
* `Tool.start`: scripts and utilities;
* `Tool.start_eq_notFound_iff`, `Tool.start_eq_notStarted_iff`: which commands run nothing.
-/

namespace ApiDiagrams
namespace Tool

/-- Why a program did not run. -/
inductive Refusal
  | notFound
  | notStarted
  deriving DecidableEq, Repr

/-- The programs of a machine. With the variables of the environment and the files, a command with
arguments and an input runs nothing, or comes to what it writes to its streams and the files that it
leaves behind. -/
abbrev Programs := (env : List (String × Text.Raw)) → FileTree → (command : String) →
  (args : List String) → (input : ByteArray) → Except Refusal (Report × FileTree)

/-- A program that stands outside the tree: what it makes of its arguments in a shell. -/
abbrev Program := List String → Shell → Shell

/-- Writes its arguments. -/
def echoProgram : Program := fun args s =>
  let (newline, args) := if args.head? = some "-n" then (false, args.tail) else (true, args)
  (s.write (String.intercalate " " args ++ (if newline then "\n" else "")).toUTF8.toList).finish 0

/-- Copies its input or files. Of its options only the one that changes nothing is known. -/
def catProgram : Program := fun args s =>
  match args.find? fun a => Text.startsWith ['-'] a.toList && a ≠ "-" && a ≠ "-u" with
  | some a =>
    let known := "AbeEnstTuv".toList
    match (a.toList.drop 1).find? fun c => !known.contains c with
    | some c =>
      (s.complain ("cat: invalid option -- '" ++ c.toString ++
        "'\nTry 'cat --help' for more information.\n")).finish 1
    | none => s.cat (args.filter (· ≠ a))
  | none => s.cat args

/-- The options that a shell knows besides `-c`. -/
def shellOptions : List Char := "aefIimnsxvVEubC".toList

/-- Runs the commands of an argument after `-c`, those of a file, or those of the input. -/
def shellProgram : Program := fun args s =>
  let fromInput (s : Shell) : Shell :=
    let (script, s) := s.takeInput
    { s with arguments := [] }.perform (Text.charsLossy script)
  match args with
  | [] => fromInput s
  | "-c" :: script :: rest =>
    { s with name := rest.headD s.name, arguments := rest.tail }.perform script.toList
  | a :: rest =>
    match a.toList with
    | '-' :: letters =>
      match letters.find? fun c => !shellOptions.contains c with
      | some c => s.fail 2 0 ("Illegal option -" ++ c.toString)
      | none => fromInput s
    | _ =>
      match s.files.read a with
      | .ok script => { s with name := a, arguments := rest }.perform (Text.charsLossy script)
      | .error _ => s.fail 2 0 ("cannot open " ++ a ++ ": No such file")

/-- The programs that stand outside the tree. -/
def programs : List (String × Program) := [
  ("true", fun _ s => s.finish 0),
  ("false", fun _ s => s.finish 1),
  ("echo", echoProgram),
  ("cat", catProgram),
  ("sh", shellProgram)]

/-- The directories of the programs that stand outside the tree. -/
def programDirs : List String := ["/bin/", "/usr/bin/"]

/-- The program outside the tree that a command names. -/
def program? (command : String) : Option Program :=
  (programs.find? fun (name, _) =>
    name = command || programDirs.any fun dir => dir ++ name = command).map (·.2)

/-- The shells that may run a script. -/
def shells : List String := ["/bin/sh", "/usr/bin/sh", "/bin/bash", "/usr/bin/bash"]

/-- The script of a file whose first line names a shell. -/
def script? (content : ByteArray) : Option (List Char) := do
  let text := Text.charsLossy content
  let rest ← Text.startsWith? ['#', '!'] text
  let words := (Text.splitOn ' ' (rest.takeWhile (· ≠ '\n'))).filter (· ≠ [])
  match words.map String.ofList with
  | "/usr/bin/env" :: name :: _ => if name = "sh" || name = "bash" then some text else none
  | shell :: _ => if shells.contains shell then some text else none
  | [] => none

/-- The file of a command that is a path with a slash, below the working directory. -/
def fileOf (files : FileTree) (command : String) : Except Refusal ByteArray :=
  if !command.toList.contains '/' || Path.isAbsolute command then .error .notFound
  else (files.read command).mapError fun _ => .notFound

/-- Scripts among the files, and the programs outside the tree. -/
def start : Programs := fun env files command args input =>
  let shell : Shell :=
    { name := command, arguments := args, input, files
      bindings := env.map fun (name, value) => (name, value.lossy) }
  let finish (s : Shell) : Except Refusal (Report × FileTree) := .ok (s.report, s.files)
  match program? command with
  | some run => finish (run args shell)
  | none =>
    match fileOf files command with
    | .error r => .error r
    | .ok content =>
      match script? content with
      | none => .error .notStarted
      | some script => finish (shell.perform script)

section Refusals

variable {env : List (String × Text.Raw)} {files : FileTree} {command : String}
  {args : List String} {input : ByteArray}

theorem fileOf_ne_notStarted : fileOf files command ≠ .error .notStarted := by
  unfold fileOf
  split
  · simp
  · cases files.read command <;> exact nofun

/-- A command is not found when it names no program and no file below the working directory. -/
theorem start_eq_notFound_iff : start env files command args input = .error .notFound ↔
    program? command = none ∧ fileOf files command = .error .notFound := by
  unfold start
  cases hprogram : program? command with
  | some run => simp
  | none =>
    cases hfile : fileOf files command with
    | error r => simp
    | ok content => cases hscript : script? content <;> simp [hscript]

/-- A file is not started when its first line names no shell. -/
theorem start_eq_notStarted_iff : start env files command args input = .error .notStarted ↔
    program? command = none ∧
      ∃ content, fileOf files command = .ok content ∧ script? content = none := by
  unfold start
  cases hprogram : program? command with
  | some run => simp
  | none =>
    cases hfile : fileOf files command with
    | error r =>
      have hne : r ≠ .notStarted := fun h => fileOf_ne_notStarted (h ▸ hfile)
      simp [hne]
    | ok content => cases hscript : script? content <;> simp [hscript]

end Refusals

end Tool
end ApiDiagrams
