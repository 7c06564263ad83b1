import Parenless.CommandLine
/-!
The program's entry point.

It reads the arguments and the two settings from the environment, reads the files a
request may look at from the working directory, and then runs the command line: the
first part at once, and the shell line by line, so that it answers each line as it
is typed. Everything it decides is decided by `CommandLine` and `Shell`; this module
only moves text between them and the operating system.
-/

namespace Parenless.Program

/-- Adds to a file tree every file that resolving `name` may look at and that can be
read. -/
def gather (t : FileTree) (roots : List FsPath) (name : String) : IO FileTree := do
  let mut t := t
  for p in FileTree.lookups roots name do
    if !p.absolute && !p.parts.isEmpty && !p.render.contains (Char.ofNat 0) then
      match ← (IO.FS.readBinFile p.render).toBaseIO with
      | .ok bytes => t := t.insert p bytes
      | .error _ => pure ()
  return t

/-- Writes text to a stream at once. -/
def emit (h : IO.FS.Stream) (text : String) : IO Unit := do
  if !text.isEmpty then
    h.putStr text
    h.flush

/-- Runs the shell on standard input, a line at a time; `false` when a failure
outside the language ends it. -/
partial def shell (s : Session) (stdin stdout stderr : IO.FS.Stream) : IO Bool := do
  emit stdout Shell.prompt
  let line ← stdin.getLine
  if line.isEmpty then
    emit stdout "\n"
    return true
  let text := String.ofList (line.toList.reverse.dropWhile (fun c => c == '\n' || c == '\r')).reverse
  let entry := Entry.ofLine text
  let s ← match entry with
    | .command (.load arg) => do pure { s with files := ← gather s.files s.roots arg }
    | _ => pure s
  match Shell.step s entry with
  | .error f =>
    emit stderr ((Report.mk f none none).text ++ "\n")
    return false
  | .ok (s', t, stop) =>
    emit stdout t.out
    emit stderr t.err
    if stop then return true else shell s' stdin stdout stderr

end Parenless.Program

/-- Runs the program. -/
def main (args : List String) : IO UInt32 := do
  let stdin ← IO.getStdin
  let stdout ← IO.getStdout
  let stderr ← IO.getStderr
  let searchPath ← IO.getEnv "POLISH_PATH"
  let recursion ← IO.getEnv "POLISH_RECURSION_LIMIT"
  match Parenless.CommandLine.invocation args with
  | .error e =>
    Parenless.Program.emit stdout e.out
    Parenless.Program.emit stderr e.err
    return e.code.toUInt32
  | .ok inv =>
    let limit := Parenless.CommandLine.budget recursion
    if Parenless.CommandLine.largestLimit < limit then
      Parenless.Program.emit stderr
        ((Parenless.Report.mk (.limitTooLarge limit) none none).text ++ "\n")
      return 1
    let s := Parenless.CommandLine.session ⟨2, 0⟩ ⟨[]⟩ searchPath limit
    let s ← match inv.file with
      | some f => do pure { s with files := ← Parenless.Program.gather s.files s.roots f }
      | none => pure s
    let p := Parenless.CommandLine.prepare s inv
    Parenless.Program.emit stdout p.out
    Parenless.Program.emit stderr p.err
    match p.failed with
    | some r =>
      Parenless.Program.emit stderr (r.text ++ "\n")
      return 1
    | none =>
      if Parenless.CommandLine.startsShell inv then
        Parenless.Program.emit stdout (Parenless.Shell.greeting ++ "\n")
        let s := Parenless.CommandLine.shellSession p.session
        if !(← Parenless.Program.shell s stdin stdout stderr) then return 1
      return 0
