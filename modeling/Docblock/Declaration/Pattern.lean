import Docblock.Declaration.Basic

/-!
# The shapes of declarations

One reader per kind of declaration. The class and function readers look for
their keyword anywhere in the line and take the first place where the whole
shape fits; the arrow and method readers start at the beginning of the line.
After its keyword every shape is deterministic: blanks, names and parameter
lists are read as far as they go, because nothing that may follow them could
continue them.
-/

namespace Docblock.Declaration

open Text

/-- Whether a character can start an identifier. -/
def isIdentStart (c : Char) : Bool := c.isAlpha || c = '_' || c = '$'

/-- Whether a character can continue an identifier. -/
def isIdentPart (c : Char) : Bool := isWord c || c = '$'

/-- The identifier a text starts with, and the rest. -/
def identifier? : Text → Option (Text × Text)
  | [] => none
  | c :: r =>
    if isIdentStart c then some (c :: r.takeWhile isIdentPart, r.dropWhile isIdentPart)
    else none

/-- The contents of the parentheses a text starts with, and the rest. The
contents run as long as `inside` holds and must end at a closing parenthesis. -/
def parenthesised? (inside : Char → Bool) : Text → Option (Text × Text)
  | '(' :: r =>
    match r.dropWhile inside with
    | ')' :: rest => some (r.takeWhile inside, rest)
    | _ => none
  | _ => none

/-- Whether a body opens here, after blanks. -/
def opensBody (t : Text) : Bool :=
  match trimStart t with
  | '{' :: _ => true
  | _ => false

/-- Skip a star. -/
def skipStar : Text → Text
  | '*' :: r => r
  | t => t

/-- A name, a parameter list and the opening of a body, with blanks between
them: the raw name and the raw parameter list. -/
def signature? (inside : Char → Bool) (t : Text) : Option (Text × Text) :=
  match identifier? (trimStart t) with
  | none => none
  | some (name, afterName) =>
    match parenthesised? inside (trimStart afterName) with
    | none => none
    | some (params, rest) => if opensBody rest then some (name, params) else none

/-- Words that follow the keyword of an anonymous class and are not its name. -/
def heritageWords : List Text := ["extends".toList, "implements".toList]

/-- The name after the keyword of a class. At least one blank stands in front
of it. -/
def className? (t : Text) : Option Text :=
  if (Text.indent t).isEmpty then none
  else
    match identifier? (trimStart t) with
    | none => none
    | some (name, _) => if heritageWords.contains name then none else some name

/-- A class at this place: the keyword at the start of the line or after a
blank, and an opening brace somewhere behind it. -/
def classAt? (before : Option Char) (t : Text) : Option Declaration :=
  if before.all isBlank then
    match keyword? "class".toList t with
    | none => none
    | some rest => if rest.contains '{' then some ⟨.classBody, className? rest, []⟩ else none
  else none

/-- Characters behind which the function keyword is no keyword: it would be
part of a word or the name of a member. -/
def joinsFunction (c : Char) : Bool := isWord c || c = '$' || c = '.'

/-- A named function at this place: the keyword, an optional star, a name, a
parameter list up to the first closing parenthesis, and a body. -/
def functionAt? (before : Option Char) (t : Text) : Option Declaration :=
  if before.any joinsFunction then none
  else
    match keyword? "function".toList t with
    | none => none
    | some rest =>
      match signature? (· ≠ ')') (skipStar (trimStart rest)) with
      | none => none
      | some (name, params) => some ⟨.function, some name, splitParams params⟩

/-- Words in front of a bound name that are not the name. -/
def bindingWords : List Text :=
  ["export".toList, "default".toList, "const".toList, "let".toList, "var".toList,
    "static".toList, "public".toList, "private".toList, "protected".toList, "readonly".toList]

/-- The name bound by the left side of an equals sign: its last word that is
no binding word, in front of any type annotation. -/
def boundName? (left : Text) : Option Text :=
  ((words (left.takeWhile (· ≠ ':'))).filter fun word => !bindingWords.contains word).getLast?

/-- Skip the word that makes an arrow function asynchronous. -/
def skipAsync (t : Text) : Text :=
  match stripStart? "async".toList t with
  | some rest => trimStart rest
  | none => t

/-- An arrow function: a left side, the first equals sign of the line, a
parameter list up to the first closing parenthesis, the arrow and a body. -/
def arrow? (line : Text) : Option Declaration :=
  match line.dropWhile (· ≠ '=') with
  | [] => none
  | _ :: right =>
    match parenthesised? (· ≠ ')') (skipAsync (trimStart right)) with
    | none => none
    | some (params, rest) =>
      match stripStart? "=>".toList (trimStart rest) with
      | none => none
      | some body =>
        if opensBody body then
          some ⟨.arrow, boundName? (line.takeWhile (· ≠ '=')), splitParams params⟩
        else none

/-- Words that modify a method and stand in front of its name. -/
def modifiers : List Text :=
  ["static".toList, "async".toList, "get".toList, "set".toList, "public".toList,
    "private".toList, "protected".toList, "override".toList]

/-- Words that look like the name of a method in front of a parenthesis and a
body, but open a statement. -/
def controlWords : List Text :=
  ["if".toList, "for".toList, "while".toList, "switch".toList, "catch".toList, "with".toList,
    "function".toList, "return".toList, "else".toList, "do".toList]

/-- The signature of a method at this place: an optional star, then a name, a
parameter list without parentheses inside it, and a body. -/
def methodSignature? (t : Text) : Option (Text × Text) :=
  signature? (fun c => c ≠ '(' && c ≠ ')') (skipStar t)

/-- Whether a text begins with a blank. -/
def startsBlank : Text → Bool
  | [] => false
  | c :: _ => isBlank c

/-- What follows the modifier a text starts with and the blanks behind it. -/
def afterModifier? (t : Text) : Option Text :=
  modifiers.findSome? fun word =>
    match stripStart? word t with
    | some rest => if startsBlank rest then some (trimStart rest) else none
    | none => none

/-- The signature of a method behind as many modifiers as possible. When the
last modifier is followed by no name, it is the name itself. At most `fuel`
modifiers are read. -/
def modifiedSignature? : (fuel : Nat) → Text → Option (Text × Text)
  | 0, t => methodSignature? t
  | fuel + 1, t =>
    match (afterModifier? t).bind (modifiedSignature? fuel) with
    | some found => some found
    | none => methodSignature? t

/-- A method at the start of the line, unless its name opens a statement. Each
modifier takes up part of the line, so its length bounds their number. -/
def method? (line : Text) : Option Declaration :=
  match modifiedSignature? line.length line with
  | none => none
  | some (name, params) =>
    if controlWords.contains name then none
    else some ⟨.method, some name, splitParams params⟩

/-- Read a line as a declaration of one kind. -/
def ofLine? : DeclarationKind → Text → Option Declaration
  | .classBody, line => search classAt? none line
  | .function, line => search functionAt? none line
  | .arrow, line => arrow? line
  | .method, line => method? line

/-- The declaration on a line: the first kind, in order of priority, whose
shape fits. Every shape needs an opening brace, so a line without one is not
looked at further. -/
def classify (line : Text) : Option Declaration :=
  if line.contains '{' then DeclarationKind.priority.findSome? (ofLine? · line) else none

end Docblock.Declaration
