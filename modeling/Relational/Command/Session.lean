import Relational.Command.Options
import Relational.Goal
import Relational.Text.Report

/-!
Answering queries: one from the arguments, or one from each line of the input. The counters of the
supplies go on from one query to the next.
-/

namespace Relational.Command

/-- What is written to the two outputs. -/
structure Output where
  out : String
  err : String

namespace Output

def empty : Output := ⟨"", ""⟩

def append (a b : Output) : Output := ⟨a.out ++ b.out, a.err ++ b.err⟩

instance : Append Output := ⟨append⟩

def join (os : List Output) : Output := os.foldr append empty

def text (s : String) : Output := ⟨s, ""⟩

theorem append_assoc (a b c : Output) : a ++ b ++ c = a ++ (b ++ c) := by
  change mk (a.out ++ b.out ++ c.out) (a.err ++ b.err ++ c.err) = _
  rw [String.append_assoc, String.append_assoc]
  rfl

@[simp] theorem out_append (a b : Output) : (a ++ b).out = a.out ++ b.out := rfl

@[simp] theorem err_append (a b : Output) : (a ++ b).err = a.err ++ b.err := rfl

@[simp] theorem out_text (s : String) : (text s).out = s := rfl

@[simp] theorem err_text (s : String) : (text s).err = "" := rfl

theorem join_eq (os : List Output) :
    join os = ⟨String.join (os.map out), String.join (os.map err)⟩ := by
  induction os with
  | nil => rfl
  | cons a os ih =>
    change a ++ join os = _
    rw [ih, List.map_cons, List.map_cons, String.join_cons, String.join_cons]
    rfl

end Output

namespace Options

/-- The line of an answer. Walking the variables for it is logged, too. -/
def answer (o : Options) (xs : VarSet) (s : State) : Output :=
  if o.showBindings then .text (s.render ++ "\n")
  else
    let events := xs.toList.flatMap fun x => (s.walk (.var x)).faults
    ⟨s.answer xs ++ "\n", o.detail.lines events⟩

/-- Answers a query. The flag tells whether there was an answer. -/
def ask (o : Options) (q : Query) (c : Counters) : Output × Bool × Counters :=
  let (outcome, c) := q.goal.run (.root .global) c
  let found := outcome.states.pull o.maxSolutions
  let answered := found.any Sum.isRight
  let written := found.map fun
    | .inl e => ⟨"", o.detail.lines [e]⟩
    | .inr s => o.answer q.freeVars s
  (⟨"", o.detail.lines outcome.opening⟩ ++ .join written
    ++ .text (if answered then "" else "no\n"), answered, c)

/-- Answers the query of the arguments; also the exit code. -/
def once (o : Options) (text : String) : Output × Nat :=
  let text := String.ofList (Text.trim text.toList)
  match Query.parse text with
  | .ok q =>
    let (output, answered, _) := o.ask q .start
    (output, if answered then 0 else 1)
  | .error e => (⟨"", e.message text ++ "\n"⟩, 2)

def greeting : String :=
  "kanren REPL v0.1.0\nType queries like `x + 5 = 9` or `(a, 2) != (1, b)`, or Ctrl-D to exit\n\n"

def prompt : String := "?- "

def farewell : String := "\nGoodbye!\n"

def unreadable : String := "Error reading input: stream did not contain valid UTF-8\n"

def reply (o : Options) (line : String) (c : Counters) : Output × Counters :=
  let text := String.ofList (Text.trim line.toList)
  if text = "" then (.empty, c)
  else
    match Query.parse text with
    | .ok q =>
      let (output, _, c) := o.ask q c
      (output, c)
    | .error e => (.text (e.message text ++ "\n"), c)

/-- Goes on with what was read at the prompt, which is nothing at the end of the input. Without
counters the dialogue is over. -/
def step (o : Options) (c : Counters) : Option (Option String) → Output × Option Counters
  | none => (.text farewell, none)
  | some none => (.text unreadable, none)
  | some (some line) =>
    let (output, c) := o.reply line c
    (output, some c)

/-- Answers the lines in turn, up to one that is no text. -/
def replies (o : Options) : Counters → List (Option String) → Output
  | c, [] => .text prompt ++ (o.step c none).1
  | c, line :: rest =>
    match o.step c (some line) with
    | (output, some c) => .text prompt ++ output ++ o.replies c rest
    | (output, none) => .text prompt ++ output

def session (o : Options) (lines : List (Option String)) : Output :=
  .text greeting ++ o.replies .start lines

end Options

/-! ### The whole command -/

/-- The bytes of each line, which ends after a line feed. -/
def byteLines : List UInt8 → List (List UInt8)
  | [] => []
  | b :: bs =>
    if b = 10 then [b] :: byteLines bs
    else
      match byteLines bs with
      | [] => [[b]]
      | l :: ls => (b :: l) :: ls

def lineOf (bytes : List UInt8) : Option String := String.fromUTF8? ⟨bytes.toArray⟩

def linesOf (input : List UInt8) : List (Option String) := (byteLines input).map lineOf

def versionText : String := "kanren 0.1.0\n"

def run (o : Options) (input : List UInt8) : Output × Nat :=
  match o.query with
  | some text => o.once text
  | none => (o.session (linesOf input), 0)

end Relational.Command
