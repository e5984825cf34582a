import CardInventory.Json.Value

/-
# JSON texts as trees

A text is read once, from left to right, into a tree that keeps what the text says and no more:
literals are not evaluated, escapes not combined, members neither sorted nor merged. A fault stays
in the tree at the place where it is met, and nothing after it is read. So who looks for values in
the tree, from left to right, meets a value of the wrong kind before a fault that follows it.
-/

namespace CardInventory
namespace Json

/-- A unit of a text: a character, or a number given by a `\u` escape. -/
inductive TextUnit where
  | char (c : Char)
  | code (n : Nat)
  deriving DecidableEq, Repr

/-- A JSON text up to its first fault. -/
inductive Tree where
  | null
  | bool (b : Bool)
  | number (l : NumberLiteral)
  | text (units : List TextUnit)
  /-- Items, and whether the closing bracket was reached. -/
  | array (items : List Tree) (closed : Bool)
  /-- Members, and whether the closing brace was reached. -/
  | object (members : List (List TextUnit × Tree)) (closed : Bool)
  | fault

/-! ## Texts -/

/-- The characters that units spell. Two codes may join to a character above U+FFFF; a code that
is half of such a pair stands for nothing alone. -/
def unitChars? : List TextUnit → Option (List Char)
  | [] => some []
  | .char c :: rest => (unitChars? rest).map (c :: ·)
  | .code n :: rest =>
    if n < 0xd800 ∨ 0xe000 ≤ n then (unitChars? rest).map (Char.ofNat n :: ·)
    else match rest with
      | .code m :: rest =>
        if n < 0xdc00 ∧ 0xdc00 ≤ m ∧ m < 0xe000 then
          (unitChars? rest).map (Char.ofNat (0x10000 + 0x400 * (n - 0xd800) + (m - 0xdc00)) :: ·)
        else none
      | _ => none

/-- The text that units spell. -/
def unitText? (units : List TextUnit) : Option String := (unitChars? units).map String.ofList

/-- The character of a one-letter escape. -/
def escape? : Char → Option Char
  | '"' => some '"'
  | '\\' => some '\\'
  | '/' => some '/'
  | 'b' => some '\x08'
  | 'f' => some '\x0c'
  | 'n' => some '\n'
  | 'r' => some '\r'
  | 't' => some '\t'
  | _ => none

/-- Reads a text after its opening quote, up to and with the closing one. -/
def readText : List Char → Option (List TextUnit × List Char)
  | [] => none
  | '"' :: rest => some ([], rest)
  | '\\' :: 'u' :: a :: b :: c :: d :: rest =>
    match Text.Hex.values? [a, b, c, d], readText rest with
    | some ds, some (units, rest) => some (.code (Text.Hex.toNat ds) :: units, rest)
    | _, _ => none
  | '\\' :: c :: rest =>
    match escape? c, readText rest with
    | some c, some (units, rest) => some (.char c :: units, rest)
    | _, _ => none
  | c :: rest =>
    if c.toNat < 0x20 then none
    else (readText rest).map fun (units, rest) => (.char c :: units, rest)

/-! ## Numbers -/

/-- Splits the digits off the start. -/
def readDigits (cs : List Char) : List Char × List Char :=
  (cs.takeWhile Char.isDigit, cs.dropWhile Char.isDigit)

/-- Reads the digits before the point: no zero before other digits. -/
def readWhole? (cs : List Char) : Option (List Char × List Char) :=
  match readDigits cs with
  | ([], _) => none
  | ('0' :: _ :: _, _) => none
  | (ds, rest) => some (ds, rest)

/-- Reads a point and at least one digit, where there is a point. -/
def readFraction? : List Char → Option (Option (List Char) × List Char)
  | '.' :: cs =>
    match readDigits cs with
    | ([], _) => none
    | (ds, rest) => some (some ds, rest)
  | cs => some (none, cs)

/-- Is this the letter of an exponent? -/
def isExponentLetter (c : Char) : Bool := c == 'e' || c == 'E'

/-- The sign of an exponent, and what follows it. -/
def readSign : List Char → Bool × List Char
  | '-' :: cs => (true, cs)
  | '+' :: cs => (false, cs)
  | cs => (false, cs)

/-- Reads an exponent, where there is its letter. -/
def readExponent? (cs : List Char) : Option (Option (Bool × List Char) × List Char) :=
  match cs with
  | [] => some (none, [])
  | c :: rest =>
    if isExponentLetter c then
      let (minus, rest) := readSign rest
      match readDigits rest with
      | ([], _) => none
      | (ds, rest) => some (some (minus, ds), rest)
    else some (none, cs)

/-- Reads a number after its sign. -/
def readMagnitude? (minus : Bool) (cs : List Char) : Option (NumberLiteral × List Char) := do
  let (whole, cs) ← readWhole? cs
  let (fraction, cs) ← readFraction? cs
  let (exponent, cs) ← readExponent? cs
  return ({ minus, whole, fraction, exponent }, cs)

/-! ## Values -/

/-- The four blanks that may stand between the parts of a text. -/
def isSpace (c : Char) : Bool := c == ' ' || c == '\n' || c == '\t' || c == '\r'

/-- The text after its leading blanks. -/
def skip (cs : List Char) : List Char := cs.dropWhile isSpace

/-- A leaf of the tree, or a fault. -/
def leaf {α : Type} (f : α → Tree) : Option (α × List Char) → Tree × Option (List Char)
  | some (a, rest) => (f a, some rest)
  | none => (.fault, none)

mutual

/-- Reads a value. What follows it is given only where it was read to its end. -/
def readValue : (fuel : Nat) → List Char → Tree × Option (List Char)
  | 0, _ => (.fault, none)
  | fuel + 1, cs =>
    match skip cs with
    | 'n' :: 'u' :: 'l' :: 'l' :: rest => (.null, some rest)
    | 't' :: 'r' :: 'u' :: 'e' :: rest => (.bool true, some rest)
    | 'f' :: 'a' :: 'l' :: 's' :: 'e' :: rest => (.bool false, some rest)
    | '"' :: rest => leaf .text (readText rest)
    | '-' :: rest => leaf .number (readMagnitude? true rest)
    | '[' :: rest =>
      match skip rest with
      | ']' :: rest => (.array [] true, some rest)
      | _ =>
        let (items, rest) := readItems fuel rest
        (.array items rest.isSome, rest)
    | '\x7b' :: rest =>
      match skip rest with
      | '\x7d' :: rest => (.object [] true, some rest)
      | _ =>
        let (members, rest) := readMembers fuel rest
        (.object members rest.isSome, rest)
    | rest => leaf .number (readMagnitude? false rest)

/-- Reads at least one item, and on to the closing bracket. -/
def readItems : (fuel : Nat) → List Char → List Tree × Option (List Char)
  | 0, _ => ([], none)
  | fuel + 1, cs =>
    match readValue fuel cs with
    | (item, none) => ([item], none)
    | (item, some rest) =>
      match skip rest with
      | ']' :: rest => ([item], some rest)
      | ',' :: rest =>
        let (items, rest) := readItems fuel rest
        (item :: items, rest)
      | _ => ([item], none)

/-- Reads at least one member, and on to the closing brace. -/
def readMembers : (fuel : Nat) → List Char → List (List TextUnit × Tree) × Option (List Char)
  | 0, _ => ([], none)
  | fuel + 1, cs =>
    match skip cs with
    | '"' :: rest =>
      match readText rest with
      | none => ([], none)
      | some (key, rest) =>
        match skip rest with
        | ':' :: rest =>
          match readValue fuel rest with
          | (value, none) => ([(key, value)], none)
          | (value, some rest) =>
            match skip rest with
            | '\x7d' :: rest => ([(key, value)], some rest)
            | ',' :: rest =>
              let (members, rest) := readMembers fuel rest
              ((key, value) :: members, rest)
            | _ => ([(key, value)], none)
        | _ => ([(key, .fault)], none)
    | _ => ([], none)

end

/-- Reads a text: its tree, and whether nothing but blanks follows the value. Every bracket costs
at most two steps. -/
def readTree (s : String) : Tree × Bool :=
  let cs := s.toList
  match readValue (2 * cs.length + 2) cs with
  | (tree, some rest) => (tree, (skip rest).isEmpty)
  | (tree, none) => (tree, false)

namespace Tree

mutual

/-- Is the tree free of faults? -/
def intact : Tree → Bool
  | fault => false
  | array items closed => itemsIntact items && closed
  | object members closed => membersIntact members && closed
  | _ => true

/-- Are all items free of faults? -/
def itemsIntact : List Tree → Bool
  | [] => true
  | item :: rest => item.intact && itemsIntact rest

/-- Are all values of members free of faults? -/
def membersIntact : List (List TextUnit × Tree) → Bool
  | [] => true
  | (_, value) :: rest => value.intact && membersIntact rest

end

end Tree
end Json
end CardInventory
