import Relational.Command.Session

/-!
The command line.
-/

namespace Relational.Command

def Output.write (o : Output) : IO Unit := do
  (← IO.getStderr).putStr o.err
  let out ← IO.getStdout
  out.putStr o.out
  out.flush

/-- The bytes of the next line, the last of them first, after those in `line`. -/
partial def readLine (input : IO.FS.Stream) (line : List UInt8) : IO (List UInt8) := do
  match (← input.read 1).toList with
  | b :: _ => if b = 10 then return b :: line else readLine input (b :: line)
  | [] => return line

partial def Options.loop (o : Options) (c : Counters) : IO Unit := do
  (Output.text Options.prompt).write
  let bytes := (← readLine (← IO.getStdin) []).reverse
  let (output, c) := o.step c (if bytes = [] then none else some (lineOf bytes))
  output.write
  if let some c := c then o.loop c

def usage : String :=
  "Usage: kanren [--max-solutions N] [--show-bindings] [--log-level LEVEL] [--version] [QUERY]\n"

def Request.perform : Request → IO UInt32
  | .version => do (Output.text versionText).write; return 0
  | .help => do (Output.text usage).write; return 0
  | .refused => do (Output.mk "" usage).write; return 2
  | .run o =>
    match o.query with
    | some text => do
      let (output, code) := o.once text
      output.write
      return code.toUInt32
    | none => do
      (Output.text Options.greeting).write
      o.loop .start
      return 0

end Relational.Command

def main (args : List String) : IO UInt32 := (Relational.Command.Request.ofArgs args).perform
