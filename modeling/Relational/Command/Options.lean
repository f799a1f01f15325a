import Relational.Command.Log
import Relational.Text.Digits

/-!
The arguments of the command. They are looked at from left to right, and the first thing that
settles the matter does.
-/

namespace Relational.Command

structure Options where
  /-- The query to answer, instead of those on the input. -/
  query : Option String
  maxSolutions : Nat
  showBindings : Bool
  detail : Detail
deriving DecidableEq

inductive Request where
  | run (o : Options)
  | version
  | help
  /-- The arguments are not understood. -/
  | refused
deriving DecidableEq

structure Given where
  query : Option String
  maxSolutions : Option Nat
  showBindings : Bool
  detail : Option Detail

namespace Given

def nothing : Given := ⟨none, none, false, none⟩

def options (g : Given) : Options :=
  ⟨g.query, g.maxSolutions.getD 10, g.showBindings, g.detail.getD .none⟩

end Given

/-- A number below `2 ^ 64`, perhaps after a plus sign. -/
def count? (s : String) : Option Nat :=
  let ds := match s.toList with | '+' :: ds => ds | ds => ds
  if ds ≠ [] ∧ ds.all Char.isDigit then
    let n := Text.digitsValue ds
    if n < UInt64.size then some n else none
  else none

inductive Setting where
  | maxSolutions | logLevel

namespace Setting

def ofName? (name : String) : Option Setting :=
  if name = "--max-solutions" then some maxSolutions
  else if name = "--log-level" then some logLevel
  else none

/-- Gives an option its value, once. -/
def give? (g : Given) (value : String) : Setting → Option Given
  | maxSolutions =>
    if g.maxSolutions.isSome then none
    else (count? value).map fun n => { g with maxSolutions := some n }
  | logLevel =>
    if g.detail.isSome then none else some { g with detail := some (.ofName value) }

end Setting

/-- Begins like an option. A lone hyphen does not. -/
def looksLikeOption (arg : String) : Bool := arg.startsWith "-" && arg ≠ "-"

def splitValue? (arg : String) : Option (String × String) :=
  match arg.toList.span (· ≠ '=') with
  | (name, _ :: value) => some (String.ofList name, String.ofList value)
  | (_, []) => none

def giveQuery? (g : Given) (arg : String) : Option Given :=
  if g.query.isSome then none else some { g with query := some arg }

/-- All arguments are for the query, even those that look like options. -/
def requestOfPlain (g : Given) : List String → Request
  | [] => .run g.options
  | arg :: rest =>
    match giveQuery? g arg with
    | some g => requestOfPlain g rest
    | none => .refused

/-- An option with its value, or one that takes none. -/
inductive Form where
  | plain | separator | version | help | showBindings
  | setting (s : Setting) (value : Option String)
  | unknown

def Form.of (arg : String) : Form :=
  if ¬looksLikeOption arg then plain
  else if arg = "--" then separator
  else if arg = "--version" ∨ arg.startsWith "-V" then version
  else if arg = "--help" ∨ arg.startsWith "-h" then help
  else if arg = "--show-bindings" then showBindings
  else
    match splitValue? arg, Setting.ofName? arg with
    | _, some s => setting s none
    | some (name, value), none =>
      match Setting.ofName? name with
      | some s => setting s (some value)
      | none => unknown
    | none, none => unknown

def requestOf (g : Given) : List String → Request
  | [] => .run g.options
  | arg :: rest =>
    match Form.of arg with
    | .plain =>
      match giveQuery? g arg with
      | some g => requestOf g rest
      | none => .refused
    | .separator => requestOfPlain g rest
    | .version => .version
    | .help => .help
    | .showBindings =>
      if g.showBindings then .refused else requestOf { g with showBindings := true } rest
    | .setting s (some value) =>
      match s.give? g value with
      | some g => requestOf g rest
      | none => .refused
    | .setting s none =>
      match rest with
      | [] => .refused
      | value :: rest =>
        if looksLikeOption value then .refused
        else
          match s.give? g value with
          | some g => requestOf g rest
          | none => .refused
    | .unknown => .refused

def Request.ofArgs (args : List String) : Request := requestOf .nothing args

end Relational.Command
