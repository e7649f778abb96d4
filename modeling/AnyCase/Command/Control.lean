import AnyCase.Command.Arguments
import AnyCase.Decimal

/-!
# `Command.Control` — the commands of the controller

The controller has a command for everything a user does with a panel. `Control.read` reads one from the
words of a command line; how often `-v` is given is accepted and not kept.
-/

namespace AnyCase

open Arguments

/-- A command of the controller. -/
inductive Control
  | openPanel
  | close
  | report (withPattern : Bool)
  | text (text : String) (remember : Bool)
  | toggle (id : String)
  | add (group label : String) (selected : Bool)
  /-- Without a value, the element stays selected or not. -/
  | edit (group id label : String) (selected : Option Bool)
  | remove (group id : String)
  | order (group id : String) (place : Nat)
  | history
  deriving DecidableEq, Repr

namespace Control

/-! ## Operands and options -/

/-- Any word. -/
def anyWord (_ : String) : Bool := true

/-- The truth value of a word. -/
def flag? (word : String) : Option Bool :=
  match word with
  | "true" => some true
  | "false" => some false
  | _ => none

/-- The number of a word: digits, of which there may be too many, after an optional plus sign. -/
def place? (word : String) : Option Nat :=
  let digits := match word.toList with
    | '+' :: rest => rest
    | cs => cs
  (Decimal.ofDigits? digits).filter (· < Nat.pow 2 64)

/-- How much is logged. -/
def verbose : Arguments.Rule := ⟨"verbose", some 'v', .count⟩

/-- The grammar of a command with some options and operands. -/
def grammar (options : List Arguments.Rule) (operands : List (String → Bool)) : Grammar :=
  ⟨verbose :: options, operands, false⟩

/-! ## Commands -/

/-- What may follow the name of a command. -/
def grammar? (name : String) : Option Grammar :=
  match name with
  | "open" | "close" | "history" => some (grammar [] [])
  | "show" => some (grammar [⟨"pattern", some 'p', .nothing⟩] [])
  | "text" => some (grammar [⟨"no-history", none, .nothing⟩] [anyWord])
  | "toggle" => some (grammar [] [anyWord])
  | "add" => some (grammar [⟨"unselected", some 'u', .nothing⟩] [anyWord, anyWord])
  | "edit" =>
    some (grammar [⟨"selected", some 's', .value (fun word => (flag? word).isSome)⟩]
      [anyWord, anyWord, anyWord])
  | "remove" => some (grammar [] [anyWord, anyWord])
  | "order" => some (grammar [] [anyWord, anyWord, fun word => (place? word).isSome])
  | _ => none

/-- The command of a name and what was given with it. -/
def ofGiven? (name : String) (g : Given) : Option Control :=
  match name with
  | "open" => some openPanel
  | "close" => some close
  | "show" => some (report (g.has "pattern"))
  | "text" => some (text (g.operand 0) !(g.has "no-history"))
  | "toggle" => some (toggle (g.operand 0))
  | "add" => some (add (g.operand 0) (g.operand 1) !(g.has "unselected"))
  | "edit" => some (edit (g.operand 0) (g.operand 1) (g.operand 2) ((g.value? "selected").bind flag?))
  | "remove" => some (remove (g.operand 0) (g.operand 1))
  | "order" => (place? (g.operand 2)).map (order (g.operand 0) (g.operand 1))
  | "history" => some history
  | _ => none

/-- What may stand before the name of a command. -/
def leading : Grammar := ⟨[verbose], [], true⟩

/-- The command of a name and the words after it. -/
def readNamed (name : String) (words : List String) : Except Stop Control :=
  if name = "help" then
    match words with
    | [] | ["help"] => .error .help
    | [topic] => .error (if (grammar? topic).isSome then .help else .usage)
    | _ => .error .usage
  else
    match grammar? name with
    | none => .error .usage
    | some g => do
      match ofGiven? name (← g.read words) with
      | some command => .ok command
      | none => .error .usage

/-- The command of the words of a command line; what comes before its name is read by `r`. -/
def readFrom (r : Reading) : List String → Except Stop Control
  | [] => .error .usage
  | word :: rest =>
    match word.toList with
    | '-' :: _ :: _ => do readFrom (← r.step leading word) rest
    | _ => if r.literal then .error .usage else readNamed word rest

/-- The command of the words of a command line. -/
def read (words : List String) : Except Stop Control := readFrom Reading.start words

end Control

end AnyCase
