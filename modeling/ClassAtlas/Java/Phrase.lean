import ClassAtlas.Java.Token

/-! Recognizing the phrases of Java that declarations are made of and that are not looked into: types,
annotations and expressions. A recognizer passes over the longest phrase at the start of some tokens
and gives the tokens after it, or nothing if there is no such phrase. Any word may stand where a name
is expected, because keywords are reserved only where they have a meaning of their own. The recognizers
call one another with less fuel each time; a few steps for each token are always enough. -/

namespace ClassAtlas.Java.Phrase

/-- Whether the tokens start with this word or mark. -/
def starts (s : String) : List Token → Bool
  | t :: _ => t.is s
  | [] => false

def startsAny (words : List String) : List Token → Bool
  | t :: _ => t.isAnyOf words
  | [] => false

/-- Passes over this word or mark. -/
def eat (s : String) : List Token → Option (List Token)
  | t :: rest => if t.is s then some rest else none
  | [] => none

/-- Passes over any word. -/
def eatWord : List Token → Option (List Token)
  | t :: rest => if t.kind == .word then some rest else none
  | [] => none

/-- Passes over a word and further words behind points. -/
def eatName : List Token → Option (List Token)
  | t :: rest =>
    if t.kind != .word then none
    else
      match rest with
      | dot :: more =>
        if dot.is "." && (more.head?.any (·.kind == .word)) then eatName more else some rest
      | [] => some []
  | [] => none

/-- Passes over everything up to the mark that closes an opened bracket. The depth counts the brackets
that are open; brackets of other sorts are passed over like anything else. -/
def closing (opener closer : String) : Nat → List Token → Option (List Token)
  | _, [] => none
  | depth, t :: rest =>
    if t.is opener then closing opener closer (depth + 1) rest
    else if t.is closer then if depth ≤ 1 then some rest else closing opener closer (depth - 1) rest
    else closing opener closer depth rest

/-- Passes over a bracketed stretch. -/
def balanced (opener closer : String) (ts : List Token) : Option (List Token) :=
  (eat opener ts).bind (closing opener closer 1)

def braces (ts : List Token) : Option (List Token) := balanced "\x7b" "\x7d" ts

def parens (ts : List Token) : Option (List Token) := balanced "(" ")" ts

def basicTypes : List String :=
  ["void", "byte", "short", "int", "long", "char", "float", "double", "boolean"]

/-- Whether the token begins an annotation and not the declaration of one. -/
def isAnnotationStart : List Token → Bool
  | at_ :: next :: _ => at_.is "@" && next.kind == .word && !(next.is "interface" && next.isAdjacent)
  | _ => false

/-- Passes over an operator between two operands. Several closing angle brackets, and an equals sign
behind them, form one operator if nothing stands between them. -/
def eatOperator : List Token → Option (List Token)
  | t :: rest =>
    if t.is ">" then
      let more := rest.dropWhile fun u => u.is ">" && u.isAdjacent
      match more with
      | u :: after => if u.is "=" && u.isAdjacent then some after else some more
      | [] => some []
    else if t.isAnyOf ["=", "+=", "-=", "*=", "/=", "&=", "|=", "^=", "%=", "<<=", "<<", "<", "<=",
      "==", "!=", "+", "-", "*", "/", "&", "|", "^", "%", "&&", "||"] then some rest
    else none
  | [] => none

/-- Whether a cast to a class type may be followed by this token. -/
def startsOperand : List Token → Bool
  | t :: _ =>
    match t.kind with
    | .word => !t.is "instanceof"
    | .number | .literal => true
    | _ => t.isAnyOf ["(", "!", "~"]
  | [] => false

mutual
/-- An annotation with its arguments. -/
def annotationUse : Nat → List Token → Option (List Token)
  | 0, _ => none
  | fuel + 1, ts =>
    if isAnnotationStart ts then do
      let rest ← eatName (ts.drop 1)
      if starts "(" rest then annotationArguments fuel (rest.drop 1) else some rest
    else none

/-- As many annotations as there are. -/
def annotations : Nat → List Token → List Token
  | 0, ts => ts
  | fuel + 1, ts =>
    match annotationUse fuel ts with
    | some rest => annotations fuel rest
    | none => ts

/-- What stands between the parentheses of an annotation, and the closing one: nothing, named values,
or one value. -/
def annotationArguments : Nat → List Token → Option (List Token)
  | 0, _ => none
  | fuel + 1, ts =>
    if starts ")" ts then some (ts.drop 1)
    else (namedValues fuel ts).or ((elementValue fuel ts).bind (eat ")"))

def namedValues : Nat → List Token → Option (List Token)
  | 0, _ => none
  | fuel + 1, ts => do
    let rest ← eatWord ts
    let rest ← eat "=" rest
    let rest ← elementValue fuel rest
    if starts "," rest then namedValues fuel (rest.drop 1) else eat ")" rest

def elementValue : Nat → List Token → Option (List Token)
  | 0, _ => none
  | fuel + 1, ts =>
    if starts "\x7b" ts then elementValues fuel (ts.drop 1)
    else (annotationUse fuel ts).or (expression fuel ts)

/-- Values up to a closing brace; the last may be followed by a comma. -/
def elementValues : Nat → List Token → Option (List Token)
  | 0, _ => none
  | fuel + 1, ts =>
    if starts "\x7d" ts then some (ts.drop 1)
    else if starts "," ts then eat "\x7d" (ts.drop 1)
    else do
      let rest ← elementValue fuel ts
      if starts "," rest then elementValues fuel (rest.drop 1) else eat "\x7d" rest

/-- A type with the annotations before it. -/
def type : Nat → List Token → Option (List Token)
  | 0, _ => none
  | fuel + 1, ts => plainType fuel (annotations fuel ts)

/-- A type without annotations before it. -/
def plainType : Nat → List Token → Option (List Token)
  | 0, _ => none
  | fuel + 1, ts => (singleType fuel ts).map (dimensions fuel)

/-- A type that is no array. -/
def singleType : Nat → List Token → Option (List Token)
  | 0, _ => none
  | fuel + 1, ts =>
    if startsAny basicTypes ts then some (ts.drop 1) else classType fuel ts

/-- Names with type arguments, set apart by points. -/
def classType : Nat → List Token → Option (List Token)
  | 0, _ => none
  | fuel + 1, ts => do
    let rest ← eatWord ts
    let rest := (typeArguments fuel rest).getD rest
    match eat "." rest with
    | some more => some ((classType fuel (annotations fuel more)).getD rest)
    | none => some rest

def typeArguments : Nat → List Token → Option (List Token)
  | 0, _ => none
  | fuel + 1, ts => do
    let rest ← eat "<" ts
    if starts ">" rest then some (rest.drop 1) else typeArgumentList fuel rest

def typeArgumentList : Nat → List Token → Option (List Token)
  | 0, _ => none
  | fuel + 1, ts => do
    let rest ← typeArgument fuel ts
    if starts "," rest then typeArgumentList fuel (rest.drop 1) else eat ">" rest

/-- A type, or a question mark with an optional bound. -/
def typeArgument : Nat → List Token → Option (List Token)
  | 0, _ => none
  | fuel + 1, ts =>
    match eat "?" (annotations fuel ts) with
    | some rest =>
      if startsAny ["extends", "super"] rest then type fuel (rest.drop 1) else some rest
    | none => type fuel ts

/-- As many pairs of square brackets, each with annotations before it, as there are. -/
def dimensions : Nat → List Token → List Token
  | 0, ts => ts
  | fuel + 1, ts =>
    match (eat "[" (annotations fuel ts)).bind (eat "]") with
    | some rest => dimensions fuel rest
    | none => ts

def expression : Nat → List Token → Option (List Token)
  | 0, _ => none
  | fuel + 1, ts => (operand fuel ts).bind (operations fuel)

/-- What may follow an operand: an operator with another one, a type test, or two alternatives. -/
def operations : Nat → List Token → Option (List Token)
  | 0, _ => none
  | fuel + 1, ts =>
    if starts "?" ts then do
      let rest ← expression fuel (ts.drop 1)
      let rest ← eat ":" rest
      expression fuel rest
    else if starts "instanceof" ts then do
      let rest ← pattern fuel (ts.drop 1)
      operations fuel rest
    else
      match eatOperator ts with
      | some rest => (operand fuel rest).bind (operations fuel)
      | none => some ts

/-- A type in a test, perhaps with components and a name. -/
def pattern : Nat → List Token → Option (List Token)
  | 0, _ => none
  | fuel + 1, ts => do
    let rest := (eat "final" ts).getD ts
    let rest ← type fuel rest
    let rest := (parens rest).getD rest
    return (eatWord rest).getD rest

/-- A lambda, or an expression with the signs before it. -/
def operand : Nat → List Token → Option (List Token)
  | 0, _ => none
  | fuel + 1, ts =>
    (lambda fuel ts).or <|
      if startsAny ["+", "-", "!", "~", "++", "--"] ts then operand fuel (ts.drop 1)
      else (cast fuel ts).or ((primary fuel ts).bind (suffixes fuel))

def lambda : Nat → List Token → Option (List Token)
  | 0, _ => none
  | fuel + 1, ts => do
    let rest ← (eatWord ts).or (parens ts)
    let rest ← eat "->" rest
    if starts "\x7b" rest then braces rest else expression fuel rest

/-- A type in parentheses and the operand that it applies to. -/
def cast : Nat → List Token → Option (List Token)
  | 0, _ => none
  | fuel + 1, ts => do
    let inside ← eat "(" ts
    let rest ← castType fuel inside
    let isBasic := startsAny basicTypes inside && inside.length == rest.length + 2
    if isBasic || startsOperand rest then operand fuel rest else none

/-- Types that are all to hold, and the closing parenthesis. -/
def castType : Nat → List Token → Option (List Token)
  | 0, _ => none
  | fuel + 1, ts => do
    let rest ← type fuel ts
    if starts "&" rest then castType fuel (rest.drop 1) else eat ")" rest

/-- The start of an expression: a literal, a name or call, a new object, a switch, something in
parentheses, or a type whose class or method is meant. -/
def primary : Nat → List Token → Option (List Token)
  | 0, _ => none
  | fuel + 1, ts =>
    match ts with
    | [] => none
    | t :: rest =>
      match t.kind with
      | .number | .literal => some rest
      | .word =>
        if t.is "new" then creation fuel rest
        else if t.is "switch" && starts "(" rest then (parens rest).bind braces
        else (typeReference fuel ts).or (call fuel rest)
      | .mark => if t.is "(" then (expression fuel rest).bind (eat ")") else none
      | .comment | .stray => none

/-- A type before a method reference, or an array type before its class. -/
def typeReference : Nat → List Token → Option (List Token)
  | 0, _ => none
  | fuel + 1, ts => do
    let single ← singleType fuel ts
    let rest := dimensions fuel single
    if starts "::" rest then some rest
    else if rest.length < single.length then (eat "." rest).bind (eat "class") else none

/-- The arguments behind a name, if there are any. -/
def call : Nat → List Token → Option (List Token)
  | 0, _ => none
  | fuel + 1, ts => if starts "(" ts then arguments fuel (ts.drop 1) else some ts

/-- Arguments and the closing parenthesis. -/
def arguments : Nat → List Token → Option (List Token)
  | 0, _ => none
  | fuel + 1, ts => if starts ")" ts then some (ts.drop 1) else argumentList fuel ts

def argumentList : Nat → List Token → Option (List Token)
  | 0, _ => none
  | fuel + 1, ts => do
    let rest ← expression fuel ts
    if starts "," rest then argumentList fuel (rest.drop 1) else eat ")" rest

/-- What follows the word for a new object: a class with arguments and perhaps a body, or an array with
its sizes or its items. -/
def creation : Nat → List Token → Option (List Token)
  | 0, _ => none
  | fuel + 1, ts => do
    let ts := annotations fuel ts
    let ts := (typeArguments fuel ts).getD ts
    let rest ← singleType fuel (annotations fuel ts)
    if starts "(" rest then do
      let after ← arguments fuel (rest.drop 1)
      if starts "\x7b" after then braces after else some after
    else
      let behind := dimensions fuel rest
      if behind.length < rest.length then arrayItems fuel behind
      else sizes fuel rest

/-- One or more sizes in square brackets, then perhaps empty pairs. -/
def sizes : Nat → List Token → Option (List Token)
  | 0, _ => none
  | fuel + 1, ts => do
    let rest ← eat "[" (annotations fuel ts)
    let rest ← expression fuel rest
    let rest ← eat "]" rest
    return (sizes fuel rest).getD (dimensions fuel rest)

/-- Items of an array in braces. -/
def arrayItems : Nat → List Token → Option (List Token)
  | 0, _ => none
  | fuel + 1, ts => (eat "\x7b" ts).bind (arrayItemList fuel)

def arrayItemList : Nat → List Token → Option (List Token)
  | 0, _ => none
  | fuel + 1, ts =>
    if starts "\x7d" ts then some (ts.drop 1)
    else if starts "," ts then eat "\x7d" (ts.drop 1)
    else do
      let rest ← if starts "\x7b" ts then arrayItems fuel ts else expression fuel ts
      if starts "," rest then
        if starts "\x7d" (rest.drop 1) then some (rest.drop 2) else arrayItemList fuel (rest.drop 1)
      else eat "\x7d" rest

/-- As many selections, calls, subscripts, method references and steps as there are. -/
def suffixes : Nat → List Token → Option (List Token)
  | 0, _ => none
  | fuel + 1, ts =>
    match ts with
    | [] => some []
    | t :: rest =>
      if t.is "." then (selection fuel rest).bind (suffixes fuel)
      else if t.is "[" then ((expression fuel rest).bind (eat "]")).bind (suffixes fuel)
      else if t.is "::" then
        (eatWord ((typeArguments fuel rest).getD rest)).bind (suffixes fuel)
      else if t.is "++" || t.is "--" then suffixes fuel rest
      else some ts

/-- What may follow a point. -/
def selection : Nat → List Token → Option (List Token)
  | 0, _ => none
  | fuel + 1, ts =>
    if starts "new" ts then creation fuel (ts.drop 1)
    else
      match ts with
      | t :: rest =>
        if t.kind == .literal then some rest
        else ((eatWord ((typeArguments fuel ts).getD ts)).bind (call fuel))
      | [] => none
end

/-- Enough fuel for any phrase at the start of some tokens. -/
def budget (ts : List Token) : Nat := 16 * ts.length + 16

/-- A type at the start of some tokens. -/
def type? (ts : List Token) : Option (List Token) := type (budget ts) ts

/-- A type without annotations before it. -/
def plainType? (ts : List Token) : Option (List Token) := plainType (budget ts) ts

def annotationUse? (ts : List Token) : Option (List Token) := annotationUse (budget ts) ts

/-- Types that are all to hold, with a mark between them; each step passes over a type and a mark. -/
def boundsFrom : Nat → List Token → Option (List Token)
  | 0, _ => none
  | fuel + 1, ts => do
    let rest ← type? ts
    if starts "&" rest then boundsFrom fuel (rest.drop 1) else some rest

/-- The bounds of a type parameter. -/
def bounds? (ts : List Token) : Option (List Token) := boundsFrom (ts.length + 1) ts

/-- What follows the annotations at the start of some tokens. -/
def afterAnnotations (ts : List Token) : List Token := annotations (budget ts) ts

/-- What follows the pairs of square brackets at the start of some tokens. -/
def afterDimensions (ts : List Token) : List Token := dimensions (budget ts) ts

/-- The initial value of a variable: an expression or the items of an array. -/
def initializer? (ts : List Token) : Option (List Token) :=
  if starts "\x7b" ts then arrayItems (budget ts) ts else expression (budget ts) ts

end ClassAtlas.Java.Phrase
