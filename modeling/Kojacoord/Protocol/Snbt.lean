import Kojacoord.Protocol.NbtRoundTrip

namespace Kojacoord
open RoundTrip

inductive SnbtError where
  | unexpectedChar (c : Char) (pos : Nat)
  | unexpectedEof
  | expected (c : Char) (pos : Nat)
  | unterminatedString
  | invalidNumber (text : String)
  | typeMismatch
deriving DecidableEq

def SnbtError.display : SnbtError → String
  | unexpectedChar c pos => s!"Unexpected character '{c}' at position {pos}"
  | unexpectedEof => "Unexpected end of input"
  | expected c pos => s!"Expected '{c}' at position {pos}"
  | unterminatedString => "Unterminated string"
  | invalidNumber text => s!"Invalid number: {text}"
  | typeMismatch => "Type mismatch in array"

/-- What the standard library knows about characters and floats. -/
structure SnbtLibrary where
  isAlphabetic : Char → Bool
  isNumeric : Char → Bool
  ascii : ∀ c : Char, c.toNat < 128 → isAlphabetic c = c.isAlpha ∧ isNumeric c = c.isDigit
  spaces : ∀ c, isWhitespace c = true → isAlphabetic c = false ∧ isNumeric c = false
  formatF32 : UInt32 → String
  formatF64 : UInt64 → String
  parseF32 : String → Option UInt32
  parseF64 : String → Option UInt64

def SnbtLibrary.isAlphanumeric (lib : SnbtLibrary) (c : Char) : Bool :=
  lib.isAlphabetic c || lib.isNumeric c

def replaceChar (c : Char) (other s : List Char) : List Char :=
  s.flatMap fun d => if d = c then other else [d]

def formatSnbtString (s : String) : List Char :=
  let escaped := replaceChar '\t' ['\\', 't'] (replaceChar '\r' ['\\', 'r']
    (replaceChar '\n' ['\\', 'n'] (replaceChar '"' ['\\', '"']
      (replaceChar '\\' ['\\', '\\'] s.toList))))
  '"' :: (escaped ++ ['"'])

def decimal (n : Int) : List Char := (toString n).toList

section Printer
variable (lib : SnbtLibrary)

def snbtArray (kind : Char) (items : List (List Char)) : List Char :=
  ['[', kind, ';'] ++ List.intercalate [','] items ++ [']']

mutual

def snbtText : NbtTag → List Char
  | .end => ['E', 'N', 'D']
  | .byte v => decimal v.toInt ++ ['b']
  | .short v => decimal v.toInt ++ ['s']
  | .int v => decimal v.toInt
  | .long v => decimal v.toInt ++ ['L']
  | .float bits => (lib.formatF32 bits).toList ++ ['f']
  | .double bits => (lib.formatF64 bits).toList ++ ['d']
  | .string s => formatSnbtString s
  | .byteArray arr => snbtArray 'B' (arr.map fun b => decimal b.toInt ++ ['b'])
  | .intArray arr => snbtArray 'I' (arr.map fun i => decimal i.toInt)
  | .longArray arr => snbtArray 'L' (arr.map fun l => decimal l.toInt ++ ['L'])
  | .list items => '[' :: (List.intercalate [','] (snbtItems items) ++ [']'])
  | .compound map => '\x7b' :: (List.intercalate [','] (snbtFields map) ++ ['\x7d'])

def snbtItems : List NbtTag → List (List Char)
  | [] => []
  | item :: items => snbtText item :: snbtItems items

def snbtFields : List (String × NbtTag) → List (List Char)
  | [] => []
  | (key, tag) :: map => (key.toList ++ ':' :: snbtText tag) :: snbtFields map

end

def toSnbt (tag : NbtTag) : String := .ofList (snbtText lib tag)

end Printer

def parseDigits (text : List Char) : Option Nat :=
  if !text.isEmpty && text.all Char.isDigit then some (Nat.ofDigitChars 10 text 0) else none

def parseInteger : List Char → Option Int
  | '-' :: text => (parseDigits text).map fun n : Nat => -(n : Int)
  | '+' :: text => (parseDigits text).map Int.ofNat
  | text => (parseDigits text).map Int.ofNat

def parseSigned (bits : Nat) (text : List Char) : Option Int :=
  (parseInteger text).filter fun n => -2 ^ (bits - 1) ≤ n && n < 2 ^ (bits - 1)

abbrev SnbtParser := Parser Char SnbtError

def unescape : Char → List Char
  | 'n' => ['\n']
  | 'r' => ['\r']
  | 't' => ['\t']
  | '\\' => ['\\']
  | '\'' => ['\'']
  | '"' => ['"']
  | c => ['\\', c]

def quotedTail (quote : Char) : Bool → List Char → List Char →
    Except SnbtError (String × List Char)
  | _, _, [] => .error .unterminatedString
  | true, result, c :: rest => quotedTail quote false (result ++ unescape c) rest
  | false, result, c :: rest =>
    if c = '\\' then quotedTail quote true result rest
    else if c = quote then .ok (.ofList result, rest)
    else quotedTail quote false (result ++ [c]) rest

def scanNumber : Bool → List Char → List Char × Bool × List Char
  | hasDot, [] => ([], hasDot, [])
  | hasDot, c :: rest =>
    if c.isDigit then
      let (text, dot, rest) := scanNumber hasDot rest
      (c :: text, dot, rest)
    else if c = '.' ∧ !hasDot then
      let (text, dot, rest) := scanNumber true rest
      (c :: text, dot, rest)
    else ([], hasDot, c :: rest)

namespace SnbtParser

def current : SnbtParser (Option Char) := return (← get).head?

def advance : SnbtParser Unit := modify List.tail

def skipWhitespace : SnbtParser Unit := skipWhile isWhitespace

def parseQuotedString : SnbtParser String := do
  let some quote ← current | throw .unexpectedEof
  advance
  quotedTail quote false []

def orInvalid (text : List Char) : Option α → SnbtParser α
  | some a => return a
  | none => throw (.invalidNumber (.ofList text))

def parseSign : SnbtParser (List Char) := do
  match ← current with
  | some '+' =>
    advance
    return ['+']
  | some '-' =>
    advance
    return ['-']
  | _ => return []

section Library
variable (lib : SnbtLibrary)

def isIdentifierChar (c : Char) : Bool := lib.isAlphanumeric c || c = '_' || c = '-' || c = '.'

def startsWord (c : Char) : Bool := lib.isAlphabetic c || c = '_'

def parseIdentifier : SnbtParser String := do
  let text := (← get).takeWhile (isIdentifierChar lib)
  modify (List.dropWhile (isIdentifierChar lib))
  return .ofList text

def parseUnquotedString : SnbtParser NbtTag := do
  let s ← parseIdentifier lib
  if s = "true" then return .byte 1
  else if s = "false" then return .byte 0
  else return .string s

def typedNumber (text : List Char) (hasDot : Bool) : SnbtParser NbtTag := do
  match ← current with
  | some 'b' | some 'B' =>
    advance
    return .byte (.ofInt (← orInvalid text (parseSigned 8 text)))
  | some 's' | some 'S' =>
    advance
    return .short (.ofInt (← orInvalid text (parseSigned 16 text)))
  | some 'l' | some 'L' =>
    advance
    return .long (.ofInt (← orInvalid text (parseSigned 64 text)))
  | some 'f' | some 'F' =>
    advance
    return .float (← orInvalid text (lib.parseF32 (.ofList text)))
  | some 'd' | some 'D' =>
    advance
    return .double (← orInvalid text (lib.parseF64 (.ofList text)))
  | _ =>
    if hasDot then return .double (← orInvalid text (lib.parseF64 (.ofList text)))
    else return .int (.ofInt (← orInvalid text (parseSigned 32 text)))

def parseNumber : SnbtParser NbtTag := do
  let sign ← parseSign
  let (digits, hasDot, rest) := scanNumber false (← get)
  set rest
  typedNumber lib (sign ++ digits) hasDot

-- The length of the whole input gives the positions in errors.
variable (length : Nat)

def unexpected : SnbtParser α := do
  match ← current with
  | some c => throw (.unexpectedChar c (length - (← get).length))
  | none => throw .unexpectedEof

def more (close : Char) : SnbtParser Bool := do
  skipWhitespace
  let next ← current
  if next = some ',' then
    advance
    return true
  else if next = some close then
    advance
    return false
  else unexpected length

/-- The loop over the items of a list or an array. The spaces after a comma are passed over before
the next item; before the first there are none left. -/
def parseItems (item : SnbtParser α) : SnbtParser (List α) :=
  listedUntil ']' (do skipWhitespace; item) (more length ']') .unexpectedEof

def byteItem : SnbtParser Int8 := do
  match ← parseNumber lib with
  | .byte b => return b
  | .int i => return i.toInt8
  | _ => throw .typeMismatch

def intItem : SnbtParser Int32 := do
  match ← parseNumber lib with
  | .int i => return i
  | _ => throw .typeMismatch

def longItem : SnbtParser Int64 := do
  match ← parseNumber lib with
  | .long l => return l
  | .int i => return i.toInt64
  | _ => throw .typeMismatch

def parseTypedArray (kind : Char) : SnbtParser NbtTag := do
  advance
  advance
  skipWhitespace
  if kind = 'B' then return .byteArray (← parseItems length (byteItem lib))
  else if kind = 'I' then return .intArray (← parseItems length (intItem lib))
  else return .longArray (← parseItems length (longItem lib))

def parseListOrArray (value : SnbtParser NbtTag) : SnbtParser NbtTag := do
  advance
  skipWhitespace
  match (← get).take 2 with
  | ['B', ';'] => parseTypedArray lib length 'B'
  | ['I', ';'] => parseTypedArray lib length 'I'
  | ['L', ';'] => parseTypedArray lib length 'L'
  | _ => return .list (← parseItems length value)

def parseKey : SnbtParser (Option String) := do
  match ← current with
  | none => unexpected length
  | some c =>
    if c = '"' ∨ c = '\'' then return some (← parseQuotedString)
    else if startsWord lib c then return some (← parseIdentifier lib)
    else if c = '\x7d' then
      advance
      return none
    else unexpected length

def expectColon : SnbtParser Unit := do
  skipWhitespace
  if (← current) = some ':' then advance else throw (.expected ':' (length - (← get).length))

def compoundTail (value : SnbtParser NbtTag) : Nat → NbtMap → SnbtParser NbtTag
  | 0, _ => throw .unexpectedEof
  | n + 1, map => do
    skipWhitespace
    match ← parseKey lib length with
    | none => return .compound map
    | some key => do
      expectColon length
      let map := NbtMap.insert key (← value) map
      if ← more length '\x7d' then compoundTail value n map else return .compound map

def parseCompound (value : SnbtParser NbtTag) : SnbtParser NbtTag := do
  advance
  skipWhitespace
  if (← current) = some '\x7d' then
    advance
    return .compound []
  else compoundTail lib length value ((← get).length + 1) []

/-- Every level of nesting takes a character, and so does every round of a loop, so that more fuel
than there are characters does not run out. -/
def parseValue : Nat → SnbtParser NbtTag
  | 0 => throw .unexpectedEof
  | fuel + 1 => do
    skipWhitespace
    match ← current with
    | none => unexpected length
    | some c =>
      if c = '\x7b' then parseCompound lib length (parseValue fuel)
      else if c = '[' then parseListOrArray lib length (parseValue fuel)
      else if c = '"' ∨ c = '\'' then return .string (← parseQuotedString)
      else if c.isDigit ∨ c = '-' ∨ c = '+' then parseNumber lib
      else if startsWord lib c then parseUnquotedString lib
      else unexpected length

end Library

end SnbtParser

def parseSnbt (lib : SnbtLibrary) (input : String) : Except SnbtError NbtTag :=
  let chars := input.toList
  (SnbtParser.parseValue lib chars.length (chars.length + 1) chars).map Prod.fst

end Kojacoord
