import ClassAtlas.Number.Numeral
import ClassAtlas.Value.Text

/-! Arguments of a command line. Flags may stand anywhere, may be shortened as far as they stay unique,
and take their value behind an equals sign or as the next argument; everything behind a double dash is
a word. Words go to the positions of the grammar in order, and what fits nowhere is left over. -/

namespace ClassAtlas.CommandLine

/-- An option. -/
structure Flag where
  names : List String
  takesValue : Bool := true
  /-- The values it can have; none are listed if any value will do. -/
  choices : List String := []
  isInteger : Bool := false
  /-- Asks for help instead of a run. -/
  isHelp : Bool := false
deriving Repr, DecidableEq

def Flag.title (f : Flag) : String := "/".intercalate f.names

def helpFlag : Flag := { names := ["-h", "--help"], takesValue := false, isHelp := true }

/-- A place for a word. -/
structure Position where
  name : String
  choices : List String := []
  /-- Whether everything that follows belongs to it as well. -/
  takesRest : Bool := false
deriving Repr, DecidableEq

structure Grammar where
  program : String
  flags : List Flag
  positions : List Position

/-- What is wrong with the arguments. -/
inductive ArgumentError where
  | ambiguous (given : String) (matching : List String)
  | valueMissing (argument : String)
  | valueUnwanted (argument value : String)
  | notAmong (argument value : String) (choices : List String)
  | notInteger (argument value : String)
  | missing (arguments : List String)
  | unrecognized (arguments : List String)
deriving Repr, DecidableEq

def ArgumentError.message : ArgumentError → String
  | ambiguous given matching =>
    "ambiguous option: " ++ given ++ " could match " ++ ", ".intercalate matching
  | valueMissing argument => "argument " ++ argument ++ ": expected one argument"
  | valueUnwanted argument value =>
    "argument " ++ argument ++ ": ignored explicit argument " ++ Value.quotedText value
  | notAmong argument value choices =>
    "argument " ++ argument ++ ": invalid choice: " ++ Value.quotedText value ++ " (choose from " ++
      ", ".intercalate (choices.map Value.quotedText) ++ ")"
  | notInteger argument value =>
    "argument " ++ argument ++ ": invalid int value: " ++ Value.quotedText value
  | missing arguments =>
    "the following arguments are required: " ++ ", ".intercalate arguments
  | unrecognized arguments => "unrecognized arguments: " ++ " ".intercalate arguments

/-- Why there is nothing to run. -/
inductive Stop where
  | help (program : String)
  | wrong (program : String) (error : ArgumentError)
deriving Repr, DecidableEq

/-! ## Words and flags -/

inductive Mark where
  | word
  | separator
  | flag (f : Flag) (value? : Option String)
  /-- It looks like a flag, but the grammar has none like it. -/
  | unknown
deriving Repr, DecidableEq

structure Token where
  text : String
  mark : Mark
deriving Repr, DecidableEq

/-- The text before the first equals sign and the text behind it. -/
def splitValue (arg : String) : String × Option String :=
  let cs := arg.toList
  let before := cs.takeWhile (· != '=')
  (String.ofList before,
    if cs.contains '=' then some (String.ofList (cs.drop (before.length + 1))) else none)

/-- Every name of every flag. -/
def Grammar.flagNames (g : Grammar) : List (String × Flag) :=
  g.flags.flatMap fun f => f.names.map (·, f)

/-- The flags that a shortened name can mean, with the value that was joined to it. -/
def Grammar.candidates (g : Grammar) (arg : String) : List (String × Flag × Option String) :=
  if arg.startsWith "--" then
    let (start, value?) := splitValue arg
    (g.flagNames.filter fun (name, _) => name.startsWith start).map fun (name, f) => (name, f, value?)
  else
    let short := String.ofList (arg.toList.take 2)
    g.flagNames.filterMap fun (name, f) =>
      if name == short then some (name, f, some (String.ofList (arg.toList.drop 2)))
      else if name.startsWith arg then some (name, f, none)
      else none

/-- A negative number is a word, for no flag looks like one. -/
def isNegativeNumber (cs : List Char) : Bool :=
  match cs with
  | '-' :: body =>
    let whole := body.takeWhile Text.isDecimalDigit
    match body.drop whole.length with
    | [] => !whole.isEmpty
    | '.' :: fraction => !fraction.isEmpty && fraction.all Text.isDecimalDigit
    | _ => false
  | _ => false

def Grammar.markOf (g : Grammar) (arg : String) : Except ArgumentError Mark :=
  let (start, value?) := splitValue arg
  if !arg.startsWith "-" || arg == "-" then .ok .word
  else
    match g.flagNames.lookup arg, if value?.isSome then g.flagNames.lookup start else none with
    | some f, _ => .ok (.flag f none)
    | none, some f => .ok (.flag f value?)
    | none, none =>
      match g.candidates arg with
      | [(_, f, value?)] => .ok (.flag f value?)
      | [] =>
        if isNegativeNumber arg.toList || arg.toList.contains ' ' then .ok .word else .ok .unknown
      | several => .error (.ambiguous arg (several.map (·.1)))

/-- Marks all arguments; behind a double dash there are only words. -/
def Grammar.tokens (g : Grammar) : List String → Except ArgumentError (List Token)
  | [] => .ok []
  | "--" :: rest => .ok (⟨"--", .separator⟩ :: rest.map (⟨·, .word⟩))
  | arg :: rest => do
    let mark ← g.markOf arg
    return ⟨arg, mark⟩ :: (← g.tokens rest)

/-! ## Taking arguments -/

/-- What has been found so far. -/
structure Found where
  /-- The values of flags and positions; a flag without a value has an empty one. -/
  values : List (String × List String) := []
  positions : List Position
  extras : List String := []

def isSeparator (t : Token) : Bool := t.mark == .separator

/-- The tokens that a position takes at the start, and those behind them. -/
def spanOf (p : Position) (tokens : List Token) : Option (List Token × List Token) :=
  let before := tokens.takeWhile isSeparator
  match tokens.drop before.length with
  | t :: rest =>
    if t.mark != .word then none
    else if p.takesRest then some (tokens, [])
    else
      let behind := rest.takeWhile isSeparator
      some (before ++ t :: behind, rest.drop behind.length)
  | [] => none

/-- The words that a position keeps: a lone word is kept without the double dash beside it. -/
def keptWords (p : Position) (tokens : List Token) : List String :=
  if p.takesRest then tokens.map (·.text)
  else (tokens.filter fun t => !isSeparator t).map (·.text)

/-- A value that may be one of a few. -/
def checkChoice (argument : String) (choices : List String) (value : String) :
    Except ArgumentError Unit :=
  if choices.isEmpty || choices.contains value then .ok ()
  else .error (.notAmong argument value choices)

/-- Whether a text is the numeral of an integer. -/
def isIntegerNumeral (s : String) : Bool :=
  let cs := s.toList.dropWhile Number.isNumeralBlank
  let (_, body) := Number.signOf (cs.reverse.dropWhile Number.isNumeralBlank).reverse
  match Number.digitRun true body with
  | (_ :: _, []) => true
  | _ => false

/-- Fills positions from the start of the tokens as long as they fit. -/
def takePositions (found : Found) (tokens : List Token) :
    List Position → Except ArgumentError (Found × List Token)
  | [] => .ok ({ found with positions := [] }, tokens)
  | p :: rest =>
    match spanOf p tokens with
    | none => .ok ({ found with positions := p :: rest }, tokens)
    | some (taken, behind) => do
      let words := keptWords p taken
      checkChoice p.name p.choices (words.head?.getD "")
      takePositions { found with values := found.values ++ [(p.name, words)] } behind rest

/-- The value of a flag: joined to it or next to it; also the tokens behind. -/
def valueOf (f : Flag) (joined? : Option String) (rest : List Token) :
    Except ArgumentError (List String × List Token) :=
  match f.takesValue, joined?, rest with
  | false, none, _ => .ok ([], rest)
  | false, some value, _ => .error (.valueUnwanted f.title value)
  | true, some value, _ => .ok ([value], rest)
  | true, none, t :: behind =>
    if t.mark == .word then .ok ([t.text], behind) else .error (.valueMissing f.title)
  | true, none, [] => .error (.valueMissing f.title)

def checkFlag (f : Flag) (values : List String) : Except ArgumentError Unit :=
  values.forM fun value => do
    if f.isInteger && !isIntegerNumeral value then throw (.notInteger f.title value)
    checkChoice f.title f.choices value

def looksLikeFlag (t : Token) : Bool :=
  match t.mark with
  | .flag .. | .unknown => true
  | _ => false

/-- Takes tokens from the start until none is left. -/
def takeAll (program : String) : Nat → Found → List Token → Except Stop Found
  | 0, found, _ => .ok found
  | fuel + 1, found, tokens =>
    let positions := (takePositions found tokens found.positions).mapError (Stop.wrong program)
    match tokens with
    | [] => .ok found
    | ⟨text, .unknown⟩ :: rest =>
      takeAll program fuel { found with extras := found.extras ++ [text] } rest
    | ⟨_, .flag f joined?⟩ :: rest => do
      let (values, behind) ← (valueOf f joined? rest).mapError (Stop.wrong program)
      if f.isHelp then throw (.help program)
      (checkFlag f values).mapError (Stop.wrong program)
      takeAll program fuel { found with values := found.values ++ [(f.title, values)] } behind
    | _ => do
      let (found, behind) ← positions
      if behind.length < tokens.length then takeAll program fuel found behind
      else
        let unused := tokens.takeWhile fun t => !looksLikeFlag t
        takeAll program fuel { found with extras := found.extras ++ unused.map (·.text) }
          (tokens.drop unused.length)

/-- Reads arguments by a grammar. Every position must be filled; extras are handed on. -/
def Grammar.read (g : Grammar) (args : List String) : Except Stop Found := do
  let tokens ← (g.tokens args).mapError (Stop.wrong g.program)
  let found ← takeAll g.program (2 * tokens.length + 1) { positions := g.positions } tokens
  if found.positions.isEmpty then return found
  else throw (.wrong g.program (.missing (found.positions.map (·.name))))

/-- The words of the last time an argument was given. -/
def Found.words? (found : Found) (name : String) : Option (List String) :=
  found.values.reverse.lookup name

/-- The value of an argument. -/
def Found.value? (found : Found) (name : String) : Option String :=
  (found.words? name).bind (·.head?)

def Found.has (found : Found) (name : String) : Bool := (found.words? name).isSome

end ClassAtlas.CommandLine
