import ClassAtlas.Java.Phrase
import ClassAtlas.Java.Tree

/-! Reading Java tokens as a syntax tree. What stands between declarations is passed over. A member that
does not fit the language becomes an error node up to its end; a type whose header does not fit keeps
its body but carries an error in its header; and where the text ends between members, the closing
braces are taken to be missing. Only a text that ends inside a member leaves its types unformed. -/

namespace ClassAtlas.Java.Declaration

open Phrase (starts startsAny)

/-- The tokens before a later point. -/
def before (rest ts : List Token) : List Token := ts.take (ts.length - rest.length)

/-- How far a member was understood before it failed. -/
inductive Point where
  /-- Right behind its type. -/
  | type
  /-- Behind something complete that only needed its end. -/
  | complete
  /-- At a token with which no member starts. -/
  | start
  | elsewhere
deriving Repr, DecidableEq

/-- What came of reading a declaration. -/
inductive Reading where
  | read (tree : Tree) (rest : List Token)
  /-- It does not fit from these tokens on. -/
  | failed (rest : List Token) (point : Point)
  /-- The text ended inside; these parts of it were read. -/
  | cut (parts : List Tree)

/-- What came of reading the members of a body. -/
inductive Body where
  /-- With the closing brace. -/
  | closed (parts : List Tree) (rest : List Token)
  /-- The text ended between two members. -/
  | ended (parts : List Tree)
  | cut (parts : List Tree)

/-! ## Modifiers -/

def modifierWords : List String := [
  "public", "protected", "private", "abstract", "static", "final", "strictfp", "default",
  "synchronized", "native", "transient", "volatile"]

def typeWords : List String := ["class", "interface", "enum"]

/-- Whether the tokens start with the word for a sealed type and not with a name. -/
def isSealed (ts : List Token) : Bool :=
  starts "sealed" ts && startsAny (modifierWords ++ typeWords) (ts.drop 1)

/-- Whether the tokens start with the word for an unsealed type, which is three tokens long. -/
def isUnsealed : List Token → Bool
  | a :: b :: c :: _ =>
    a.is "non" && b.is "-" && b.isAdjacent && c.is "sealed" && c.isAdjacent
  | _ => false

/-- The modifiers at the start of some tokens, and what follows. -/
def modifiersFrom : Nat → List Token → List Tree × List Token
  | 0, ts => ([], ts)
  | fuel + 1, ts =>
    let (part?, rest) : Option Tree × List Token :=
      match Phrase.annotationUse? ts with
      | some rest => (some (.flat .annotationUse (before rest ts)), rest)
      | none =>
        match ts with
        | t :: rest =>
          if t.isAnyOf modifierWords || isSealed ts then (some (.word t), rest)
          else if isUnsealed ts then (some (.flat .word (ts.take 3)), ts.drop 3)
          else (none, ts)
        | [] => (none, ts)
    match part? with
    | none => ([], ts)
    | some part =>
      let (parts, rest) := modifiersFrom fuel rest
      (part :: parts, rest)

/-- The modifiers as children of a declaration. -/
def modifiers (ts : List Token) : List Tree × List Token :=
  let (parts, rest) := modifiersFrom ts.length ts
  (if parts.isEmpty then [] else [.make .modifiers parts], rest)

/-- Whether the tokens start the declaration of an annotation type. -/
def isAnnotationType : List Token → Bool
  | a :: b :: _ => a.is "@" && b.is "interface" && b.isAdjacent
  | _ => false

/-- Whether the tokens start a record and not a member whose type or name is that word. -/
def isRecord : List Token → Bool
  | a :: b :: c :: _ => a.is "record" && b.kind == .word && (c.is "(" || c.is "<")
  | _ => false

/-- Whether a declaration may start here in the midst of something broken. -/
def restarts (ts : List Token) : Bool :=
  startsAny (modifierWords ++ typeWords ++ Phrase.basicTypes ++ ["@"]) ts

/-! ## Phrases as trees -/

/-- Parts with a mark between neighbours, as long as the mark follows. -/
def separated (item? : List Token → Option (List Token)) : Nat → List Token →
    Option (List Tree × List Token)
  | 0, _ => none
  | fuel + 1, ts => do
    let rest ← item? ts
    let item := Tree.flat .phrase (before rest ts)
    match rest with
    | t :: more =>
      if t.is "," then
        let (items, after) ← separated item? fuel more
        return (item :: .word t :: items, after)
      else return ([item], rest)
    | [] => return ([item], [])

def typeList (ts : List Token) : Option (Tree × List Token) :=
  (separated Phrase.type? ts.length ts).map fun (items, rest) => (.make .typeList items, rest)

/-- A name with bounds. -/
def typeParameter (ts : List Token) : Option (List Token) := do
  let rest ← Phrase.eatWord (Phrase.afterAnnotations ts)
  if starts "extends" rest then Phrase.bounds? (rest.drop 1) else return rest

def typeParameters (ts : List Token) : Option (Tree × List Token) := do
  let (_, rest) ← separated typeParameter ts.length (ts.drop 1)
  let after ← Phrase.eat ">" rest
  return (.flat .phrase (before after ts), after)

/-! ## Parameters -/

/-- A word behind words and points, all of them the name of the object a method is called on. -/
def isReceiver : List Token → Bool
  | t :: rest =>
    if t.is "this" then true
    else
      match rest with
      | dot :: more => t.kind == .word && dot.is "." && isReceiver more
      | [] => false
  | [] => false

/-- The tokens behind a receiver. -/
def afterReceiver (ts : List Token) : List Token :=
  (ts.dropWhile fun t => !t.is "this").drop 1

/-- The brackets behind a name as a part, if there are any. -/
def dimensions (ts : List Token) : List Tree × List Token :=
  let rest := Phrase.afterDimensions ts
  (if rest.length < ts.length then [(Tree.flat .phrase (before rest ts)).as .dimensions] else [], rest)

/-- A name with brackets and an initial value. -/
def declarator (ts : List Token) : Except (List Token × Point) (Tree × List Token) :=
  match ts with
  | name :: rest =>
    if name.kind != .word then .error (ts, .elsewhere)
    else
      let (brackets, rest) := dimensions rest
      let head := (Tree.ident name).as .name :: brackets
      match rest with
      | eq :: value =>
        if eq.is "=" then
          match Phrase.initializer? value with
          | some after =>
            .ok (.make .declarator
              (head ++ [.word eq, (Tree.flat .phrase (before after value)).as .value]), after)
          | none => .error (value, .elsewhere)
        else .ok (.make .declarator head, rest)
      | [] => .ok (.make .declarator head, [])
  | [] => .error ([], .elsewhere)

/-- One parameter: the object of the call, a variable number of arguments, or a plain one. -/
def parameter (ts : List Token) : Option (Tree × List Token) := do
  let (mods, start) := modifiers ts
  let rest ← Phrase.plainType? start
  let typeTree := (Tree.flat .phrase (before rest start)).as .type
  match rest with
  | t :: more =>
    if t.is "..." then
      let named := Phrase.afterAnnotations more
      let marks := (Tree.word t) ::
        if named.length < more.length then [Tree.flat .annotationUse (before named more)] else []
      let (name, after) ← (declarator named).toOption
      return (.make .variableParameter (mods ++ [typeTree] ++ marks ++ [name]), after)
    else if isReceiver rest then
      return (.flat .phrase (before (afterReceiver rest) ts), afterReceiver rest)
    else if t.kind == .word then
      let (brackets, after) := dimensions more
      return (.make .parameter (mods ++ [typeTree, (Tree.ident t).as .name] ++ brackets), after)
    else none
  | [] => none

/-- Parameters and the closing parenthesis. -/
def parametersFrom : Nat → List Token → Option (List Tree × List Token)
  | 0, _ => none
  | fuel + 1, ts => do
    let (p, rest) ← parameter ts
    match rest with
    | t :: more =>
      if t.is "," then
        let (others, after) ← parametersFrom fuel more
        return (p :: .word t :: others, after)
      else if t.is ")" then return ([p, .word t], more)
      else none
    | [] => none

/-- A parenthesized list of parameters. -/
def parameters (ts : List Token) : Option (Tree × List Token) :=
  match ts with
  | opening :: rest =>
    match rest with
    | t :: after =>
      if t.is ")" then some (.make .parameterList [.word opening, .word t], after)
      else
        (parametersFrom ts.length rest).map fun (parts, after) =>
          (.make .parameterList (.word opening :: parts), after)
    | [] => none
  | [] => none

/-! ## Blocks -/

/-- A block in braces. If the text ends in it behind a brace or a semicolon, only braces are missing. -/
def block? (ts : List Token) : Option (Tree × List Token) :=
  match Phrase.braces ts with
  | some rest => some (.flat .block (before rest ts), rest)
  | none =>
    if ts.getLast?.any fun t => t.isAnyOf ["\x7b", "\x7d", ";"] then some (.flat .block ts, []) else none

/-- Something with a body in braces that is not looked into. -/
def withBlock (parts : List Tree) (ts : List Token) : Reading :=
  match block? ts with
  | some (b, rest) => .read (.make .other (parts ++ [b])) rest
  | none => .cut parts

/-! ## Members without a body of members -/

/-- The names of exceptions behind a header, if there are any. -/
def throwsClause (ts : List Token) : Option (List Tree × List Token) :=
  match ts with
  | t :: rest =>
    if t.is "throws" then
      (typeList rest).map fun (types, after) => ([.make .other [.word t, types]], after)
    else some ([], ts)
  | [] => some ([], ts)

/-- What follows the parameters of a method. -/
def methodEnd (head : List Tree) (ts : List Token) : Reading :=
  let rest := Phrase.afterDimensions ts
  let brackets := if rest.length < ts.length then [Tree.flat .phrase (before rest ts)] else []
  match throwsClause rest with
  | none => .failed rest .elsewhere
  | some (exceptions, rest) =>
    let parts := head ++ brackets ++ exceptions
    match rest with
    | [] => .cut parts
    | t :: after =>
      if t.is ";" then .read (.make .methodDeclaration (parts ++ [.word t])) after
      else if t.is "\x7b" then
        match block? rest with
        | some (b, after) => .read (.make .methodDeclaration (parts ++ [b.as .body])) after
        | none => .cut parts
      else .failed rest .complete

/-- The declarators of a field and the closing semicolon. -/
def fieldEnd : Nat → List Tree → List Token → Reading
  | 0, _, ts => .failed ts .elsewhere
  | fuel + 1, head, ts =>
    match declarator ts with
    | .error (rest, point) => .failed rest point
    | .ok (d, rest) =>
      let parts := head ++ [d.as .declarator]
      match rest with
      | [] => .cut parts
      | t :: more =>
        if t.is "," then fieldEnd fuel (parts ++ [.word t]) more
        else if t.is ";" then .read (.make .fieldDeclaration (parts ++ [.word t])) more
        else .failed rest .complete

/-- A constructor from its name on. -/
def constructor (head : List Tree) (ts : List Token) : Reading :=
  match parameters (ts.drop 1) with
  | none => .failed (ts.drop 1) .elsewhere
  | some (ps, rest) =>
    match throwsClause rest with
    | none => .failed rest .elsewhere
    | some (exceptions, rest) =>
      let parts := head ++ (ts.take 1).map Tree.ident ++ [ps] ++ exceptions
      if rest.isEmpty then .cut parts
      else if starts "\x7b" rest then withBlock parts rest
      else .failed rest .complete

/-- A method or a field from its type on. -/
def typedMember (head : List Tree) (isGeneric : Bool) (ts : List Token) : Reading :=
  match Phrase.plainType? ts with
  | none => .failed ts (if head.isEmpty && !starts "@" ts then .start else .elsewhere)
  | some rest =>
    let parts := head ++ [(Tree.flat .phrase (before rest ts)).as .type]
    match rest with
    | [] => .cut parts
    | name :: more =>
      if name.kind != .word then .failed rest .type
      else if starts "(" more then
        match parameters more with
        | none => .failed more .elsewhere
        | some (ps, after) =>
          methodEnd (parts ++ [(Tree.ident name).as .name, ps.as .parameters]) after
      else if isGeneric then .failed more .elsewhere
      else if restarts rest then .failed rest .type
      else fieldEnd ts.length parts rest

/-- A constructor, a method or a field from its type parameters on. -/
def plainMember (head : List Tree) (ts : List Token) : Reading :=
  let generic? : Option (List Tree × List Token) :=
    if starts "<" ts then
      (typeParameters ts).map fun (tree, rest) =>
        let after := Phrase.afterAnnotations rest
        ([tree] ++ (if after.length < rest.length
          then [Tree.flat .annotationUse (before after rest)] else []), after)
    else some ([], ts)
  match generic? with
  | none => .failed ts .elsewhere
  | some (generic, start) =>
    let head := head ++ generic
    match start with
    | t :: next :: _ =>
      if t.kind == .word && next.is "(" then constructor head start
      else if t.kind == .word && next.is "\x7b" then withBlock (head ++ [.ident t]) (start.drop 1)
      else typedMember head (!generic.isEmpty) start
    | _ => typedMember head (!generic.isEmpty) start

/-! ## Types -/

/-- The parts of a header that were read, and the tokens from which on it does not fit, if so. -/
structure Header where
  parts : List Tree
  rest : List Token
  sound : Bool

/-- Adds what a reader makes of the next tokens. -/
def Header.step (h : Header) (reader : List Token → Option (List Tree × List Token)) : Header :=
  if !h.sound then h
  else
    match reader h.rest with
    | some (parts, rest) => ⟨h.parts ++ parts, rest, true⟩
    | none => { h with sound := false }

/-- A clause that is there if its word is. -/
def clause (word : String) (build : Token → List Token → Option (Tree × List Token))
    (ts : List Token) : Option (List Tree × List Token) :=
  match ts with
  | t :: rest => if t.is word then (build t rest).map fun (tree, after) => ([tree], after)
      else some ([], ts)
  | [] => some ([], ts)

def superclassClause : List Token → Option (List Tree × List Token) :=
  clause "extends" fun t rest => (Phrase.type? rest).map fun after =>
    ((Tree.make .superclass [.word t, .flat .phrase (before after rest)]).as .superclass, after)

def listClause (word : String) (k : Kind) : List Token → Option (List Tree × List Token) :=
  clause word fun t rest => (typeList rest).map fun (types, after) =>
    (.make k [.word t, types], after)

def nameOf (ts : List Token) : Option (List Tree × List Token) :=
  match ts with
  | t :: rest => if t.kind == .word then some ([(Tree.ident t).as .name], rest) else none
  | [] => none

def typeParameterClause (ts : List Token) : Option (List Tree × List Token) :=
  if starts "<" ts then (typeParameters ts).map fun (tree, rest) => ([tree], rest)
  else some ([], ts)

def bodyStart (ts : List Token) : Option (List Tree × List Token) :=
  if starts "\x7b" ts then some ([], ts) else none

/-- A header behind its keyword, up to the opening brace. -/
def header (k : Kind) (ts : List Token) : Header :=
  let named := (Header.mk [] ts true).step nameOf
  let clauses : List (List Token → Option (List Tree × List Token)) :=
    match k with
    | .classDeclaration => [typeParameterClause, superclassClause,
        listClause "implements" .implementsClause, listClause "permits" .other]
    | .interfaceDeclaration => [typeParameterClause, listClause "extends" .extendsClause,
        listClause "permits" .other]
    | _ => [listClause "implements" .implementsClause]
  (clauses.foldl Header.step named).step bodyStart

/-- The tokens before an opening brace that comes before any semicolon or closing brace. -/
def toBody : List Token → Option (List Token)
  | [] => none
  | t :: rest =>
    if t.is "\x7b" then some []
    else if t.is ";" || t.is "\x7d" then none
    else (toBody rest).map (t :: ·)

/-- Stands for something that should have been there. -/
def missing : Tree := .leaf none .word ⟨.mark, [], [], [], 0⟩ true

def declarationKind (t : Token) : Kind :=
  if t.is "class" then .classDeclaration
  else if t.is "interface" then .interfaceDeclaration else .enumDeclaration

/-- What stands in the place of tokens that do not fit. -/
def errorOf (ts : List Token) : List Tree := if ts.isEmpty then [] else [.flat .error ts]

/-- The tokens up to the end of something broken: a semicolon, a block, or just before the brace that
closes the body around it. Nothing if the text ends before. -/
def brokenEnd : List Token → Option (List Token)
  | [] => none
  | t :: rest =>
    if t.is ";" then some rest
    else if t.is "\x7b" then some ((Phrase.closing "\x7b" "\x7d" 1 rest).getD [])
    else if t.is "\x7d" then some (t :: rest)
    else brokenEnd rest

/-- The parts of an enumeration before its members. A word behind a complete constant shows that the
constant did not fit. -/
inductive Constants where
  | closed (parts : List Tree) (rest : List Token)
  | members (parts : List Tree) (semicolon : Token) (rest : List Token)
  | ended (parts : List Tree)
  | cut (parts : List Tree)

/-- What may follow the name of a constant: arguments and a body, of whatever content. -/
def constantEnd (ts : List Token) : Option (List Tree × List Token) := do
  let arguments ← if starts "(" ts then Phrase.parens ts else some ts
  let parts := if starts "(" ts then [Tree.flat .phrase (before arguments ts)] else []
  if starts "\x7b" arguments then
    let (b, rest) ← block? arguments
    return (parts ++ [b.as .body], rest)
  else return (parts, arguments)

def constants : Nat → List Tree → List Token → Constants
  | 0, done, _ => .cut done.reverse
  | fuel + 1, done, ts =>
    let (mods, rest) := modifiers ts
    match rest with
    | [] => if mods.isEmpty then .ended done.reverse else .cut done.reverse
    | t :: after =>
      if t.kind == .word then
        match constantEnd after with
        | none => .cut done.reverse
        | some (more, after) =>
          let constant := Tree.make .enumConstant (mods ++ [(Tree.ident t).as .name] ++ more)
          let fits := after.isEmpty || startsAny [",", ";", "\x7d"] after ||
            !(after.head?.any (·.kind == .word))
          let part := if fits then constant else .make .error [constant]
          constants fuel (part :: done) after
      else
        let done := mods.reverse ++ done
        if t.is "\x7d" then .closed (.word t :: done).reverse after
        else if t.is ";" then .members done.reverse t after
        else if t.is "," then constants fuel (.word t :: done) after
        else constants fuel (.flat .error [t] :: done) after

mutual
/-- A type from its keyword on, behind its modifiers. -/
def typeDeclaration : Nat → List Tree → List Token → Reading
  | 0, _, ts => .failed ts .elsewhere
  | _ + 1, _, [] => .failed [] .elsewhere
  | fuel + 1, mods, keyword :: ts =>
    let k := declarationKind keyword
    let h := header k ts
    let start? : Option (List Tree × List Token) :=
      if h.sound then some ([], h.rest)
      else (toBody h.rest).map fun skipped =>
        (if skipped.isEmpty then [missing] else [.flat .error skipped],
          h.rest.drop skipped.length)
    match start? with
    | none => if h.rest.isEmpty then .cut [] else .failed h.rest .elsewhere
    | some (broken, start) =>
      let head := mods ++ [.word keyword] ++ h.parts ++ broken
      let opening := (start.take 1).map Tree.word
      let formed (parts : List Tree) (rest : List Token) : Reading :=
        .read (.make k (head ++ [(Tree.make .typeBody (opening ++ parts)).as .body])) rest
      match body fuel k (start.drop 1) with
      | .closed parts rest => formed parts rest
      | .ended parts => formed (parts ++ [missing]) []
      | .cut parts => .cut parts

/-- What stands between the braces of a type. -/
def body : Nat → Kind → List Token → Body
  | 0, _, _ => .cut []
  | fuel + 1, k, ts =>
    if k == .enumDeclaration then
      match constants (ts.length + 1) [] ts with
      | .closed parts rest => .closed parts rest
      | .ended parts => .ended parts
      | .cut parts => .cut parts
      | .members parts semicolon rest =>
        let withMembers (inner : List Tree) : List Tree :=
          parts ++ [.make .enumMembers (.word semicolon :: inner)]
        match members fuel [] rest with
        | .closed inner rest => .closed (withMembers inner.dropLast ++ inner.getLast?.toList) rest
        | .ended inner => .ended (withMembers inner)
        | .cut inner => .cut (parts ++ inner)
    else members fuel [] ts

/-- Members up to the closing brace. -/
def members : Nat → List Tree → List Token → Body
  | 0, done, _ => .cut done.reverse
  | _ + 1, done, [] => .ended done.reverse
  | fuel + 1, done, t :: ts =>
    if t.is "\x7d" then .closed (.word t :: done).reverse ts
    else
      match member fuel (t :: ts) with
      | .read tree rest => members fuel (tree :: done) rest
      | .cut parts => .cut (done.reverse ++ parts)
      | .failed rest point =>
        match resume fuel rest point with
        | none => .cut done.reverse
        | some after =>
          members fuel ((errorOf (before after (t :: ts))).reverse ++ done) after

/-- Where reading goes on behind a member that failed: at the next member, if that is where it failed,
behind a token with which none starts, or else behind the broken one. -/
def resume : Nat → List Token → Point → Option (List Token)
  | 0, _, _ => none
  | fuel + 1, ts, point =>
    let here : Bool :=
      match point with
      | .type => restarts ts
      | .complete =>
        match member fuel ts with
        | .read _ _ => true
        | _ => false
      | .start | .elsewhere => false
    if here then some ts
    else if point == .start then if (ts.drop 1).isEmpty then none else some (ts.drop 1)
    else brokenEnd ts

/-- One member of a type. -/
def member : Nat → List Token → Reading
  | 0, ts => .failed ts .elsewhere
  | fuel + 1, ts =>
    let (mods, rest) := modifiers ts
    match rest with
    | [] => .cut mods
    | t :: after =>
      if t.is ";" && mods.isEmpty then .read (.word t) after
      else if t.is "\x7b" then withBlock mods rest
      else if t.isAnyOf typeWords then typeDeclaration fuel mods rest
      else if isAnnotationType rest || isRecord rest then
        match toBody rest with
        | some skipped => withBlock (mods ++ errorOf skipped) (rest.drop skipped.length)
        | none => .failed rest .elsewhere
      else plainMember mods rest
end

/-! ## Units -/

/-- Words that start a statement with statements of its own. -/
def controlWords : List String := ["if", "while", "for", "else", "do", "try", "switch",
  "synchronized", "catch", "finally", "case", "return", "throw"]

/-- Whether a statement that starts here keeps the declarations in it to itself. -/
def hides : List Token → Bool
  | t :: next :: _ => t.isAnyOf controlWords || (t.kind == .word && next.is ":")
  | _ => false

/-- The tokens behind a statement: a semicolon or a block ends it, and so does a declaration that
starts in it, unless it keeps declarations to itself or a point stands before. -/
def afterStatement (hidden afterPoint : Bool) : List Token → List Token
  | [] => []
  | t :: rest =>
    if t.is ";" then rest
    else if t.is "\x7b" then (Phrase.closing "\x7b" "\x7d" 1 rest).getD []
    else if !hidden && !afterPoint && startsAny (modifierWords ++ typeWords ++ ["@"]) (t :: rest) then
      t :: rest
    else afterStatement hidden (t.is ".") rest

/-- The tokens behind a statement that is at least one token long. -/
def statement (ts : List Token) : List Token :=
  match ts with
  | [] => []
  | t :: rest =>
    if t.is ";" then rest
    else if t.is "\x7b" then (Phrase.closing "\x7b" "\x7d" 1 rest).getD []
    else if t.is "\x7d" then rest
    else afterStatement (hides ts) (t.is ".") rest

/-- A package declaration. -/
def package? (ts : List Token) : Option (Tree × List Token) := do
  let start := Phrase.afterAnnotations ts
  let rest ← Phrase.eat "package" start
  let after ← Phrase.eatName rest
  let ending := if starts ";" after then after.take 1 else []
  return (.make .package ((before rest ts).map Tree.word ++
    [.flat .identifier (before after rest)] ++ ending.map Tree.word), after.drop ending.length)

/-- The declarations of a unit and what stands between them. -/
def unitParts : Nat → List Token → List Tree
  | 0, _ => []
  | _ + 1, [] => []
  | fuel + 1, t :: ts =>
    let all := t :: ts
    match package? all with
    | some (tree, rest) => tree :: unitParts fuel rest
    | none =>
      let (mods, rest) := modifiers all
      let passed : List Tree :=
        let after := statement all
        errorOf (before after all) ++ unitParts fuel after
      if startsAny typeWords rest then
        match typeDeclaration (8 * rest.length + 8) mods rest with
        | .read tree after => tree :: unitParts fuel after
        | .cut parts => [.make .error parts]
        | .failed after _ =>
          if after.length < all.length then errorOf (before after all) ++ unitParts fuel after
          else passed
      else if isAnnotationType rest || isRecord rest then
        match (toBody rest).bind fun skipped => Phrase.braces (rest.drop skipped.length) with
        | some after => .flat .other (before after all) :: unitParts fuel after
        | none => passed
      else passed

/-- The tree of a unit. -/
def unit (ts : List Token) : Tree := .make .program (unitParts (ts.length + 1) ts)

end ClassAtlas.Java.Declaration
