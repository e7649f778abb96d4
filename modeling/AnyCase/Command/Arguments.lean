/-!
# `Command.Arguments` — reading command lines

A command line is a list of words. What a program understands is said by a `Grammar`: its options and
the operands it needs. The usual conventions hold:

* `--name`, `--name value` and `--name=value` are long options, `-n`, `-n value`, `-nvalue` and
  `-n=value` short ones; short options without a value can be written together;
* an option is given once, unless it counts how often it is given;
* `--` ends the options; `-` alone is an operand.

The words are read from the left (`Reading.step`). Asking for the help or the version ends the reading
there.
-/

namespace AnyCase.Arguments

/-- What an option takes. -/
inductive Takes
  /-- Nothing. -/
  | nothing
  /-- Nothing, and it may be repeated. -/
  | count
  /-- A value that satisfies a condition. -/
  | value (accepts : String → Bool)

/-- An option with its long and its short name. -/
structure Rule where
  long : String
  short : Option Char
  takes : Takes

/-- What a program understands. -/
structure Grammar where
  options : List Rule
  /-- The conditions on its operands, all of which are needed. -/
  operands : List (String → Bool)
  /-- Whether it tells its version. -/
  hasVersion : Bool

/-- Why the words of a command line are not run. -/
inductive Stop
  /-- They are wrong. -/
  | usage
  | help
  | version
  deriving DecidableEq, Repr

/-- The options that were given, with their values, and the operands. -/
structure Given where
  flags : List String
  values : List (String × String)
  operands : List String
  deriving DecidableEq, Repr, Inhabited

namespace Given

/-- Whether an option was given. -/
def has (g : Given) (long : String) : Bool := g.flags.contains long

/-- The value of an option. -/
def value? (g : Given) (long : String) : Option String := g.values.lookup long

/-- The operand at a place. -/
def operand (g : Given) (place : Nat) : String := (g.operands[place]?).getD ""

end Given

/-- What has been read so far. -/
structure Reading where
  given : Given
  /-- The option whose value is the next word. -/
  pending : Option Rule
  /-- Whether the options have ended. -/
  literal : Bool

namespace Reading

/-- The reading before the first word. -/
def start : Reading := ⟨⟨[], [], []⟩, none, false⟩

/-- An option without a value. -/
def flag (r : Reading) (rule : Rule) : Except Stop Reading :=
  match rule.takes with
  | .nothing =>
    if r.given.has rule.long then .error .usage
    else .ok { r with given := { r.given with flags := rule.long :: r.given.flags } }
  | .count => .ok { r with given := { r.given with flags := rule.long :: r.given.flags } }
  | .value _ => .ok { r with pending := some rule }

/-- An option with a value. -/
def value (r : Reading) (rule : Rule) (text : String) : Except Stop Reading :=
  match rule.takes with
  | .value accepts =>
    if (r.given.value? rule.long).isSome || !accepts text then .error .usage
    else .ok { r with
      given := { r.given with values := r.given.values ++ [(rule.long, text)] }, pending := none }
  | _ => .error .usage

/-- A long option, after its dashes. -/
def long (g : Grammar) (r : Reading) (word : List Char) : Except Stop Reading :=
  let name := String.ofList (word.takeWhile (· ≠ '='))
  let attached := word.dropWhile (· ≠ '=')
  match g.options.find? (fun rule => rule.long = name) with
  | some rule =>
    match attached with
    | [] => r.flag rule
    | _ :: text => r.value rule (String.ofList text)
  | none =>
    if attached ≠ [] then .error .usage
    else if name = "help" then .error .help
    else if name = "version" && g.hasVersion then .error .version
    else .error .usage

/-- Short options, after their dash. -/
def short (g : Grammar) (r : Reading) : List Char → Except Stop Reading
  | [] => .ok r
  | c :: rest =>
    match g.options.find? (fun rule => rule.short = some c) with
    | some rule =>
      match rule.takes, rest with
      | .value _, [] => r.flag rule
      | .value _, '=' :: text => r.value rule (String.ofList text)
      | .value _, text => r.value rule (String.ofList text)
      | _, rest => do short g (← r.flag rule) rest
    | none =>
      if c = 'h' then .error .help
      else if c = 'V' && g.hasVersion then .error .version
      else .error .usage

/-- An operand. -/
def operand (g : Grammar) (r : Reading) (word : String) : Except Stop Reading :=
  match g.operands[r.given.operands.length]? with
  | some accepts =>
    if accepts word then
      .ok { r with given := { r.given with operands := r.given.operands ++ [word] } }
    else .error .usage
  | none => .error .usage

/-- The reading after one more word. -/
def step (g : Grammar) (r : Reading) (word : String) : Except Stop Reading :=
  if r.literal then r.operand g word
  else
    match word.toList, r.pending with
    | '-' :: _ :: _, some _ => .error .usage
    | _, some rule => r.value rule word
    | ['-', '-'], none => .ok { r with literal := true }
    | '-' :: '-' :: name, none => r.long g name
    | '-' :: c :: rest, none => r.short g (c :: rest)
    | _, none => r.operand g word

/-- What was given, once all words are read. -/
def finish (g : Grammar) (r : Reading) : Except Stop Given :=
  if r.pending.isSome || r.given.operands.length < g.operands.length then .error .usage
  else .ok r.given

end Reading

/-- What is given by the words of a command line. -/
def Grammar.read (g : Grammar) (words : List String) : Except Stop Given := do
  (← words.foldlM (Reading.step g) Reading.start).finish g

end AnyCase.Arguments
