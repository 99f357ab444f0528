import Kojacoord.Lib.RoundTrip

namespace Json
open RoundTrip List

def isNumberChar (c : Char) : Bool := c.isDigit || c ∈ ['-', '+', '.', 'e', 'E']

def isExponent : List Char → Bool
  | [] => true
  | c :: rest =>
    let digits := match rest with
      | '+' :: digits | '-' :: digits | digits => digits
    (c = 'e' || c = 'E') && !digits.isEmpty && digits.all Char.isDigit

def isFraction : List Char → Bool
  | '.' :: rest =>
    !(rest.takeWhile Char.isDigit).isEmpty && isExponent (rest.dropWhile Char.isDigit)
  | rest => isExponent rest

def isUnsigned (text : List Char) : Bool :=
  match text.takeWhile Char.isDigit with
  | [] => false
  | first :: more => (first ≠ '0' || more.isEmpty) && isFraction (text.dropWhile Char.isDigit)

def isNumber : List Char → Bool
  | '-' :: rest => isUnsigned rest
  | rest => isUnsigned rest

structure Literal where
  text : List Char
  chars : text.all isNumberChar = true
  valid : isNumber text = true

inductive Value where
  | null
  | bool (b : Bool)
  | num (literal : Literal)
  | str (s : String)
  | arr (items : List Value)
  | obj (members : List (String × Value))

def escape (c : Char) : List Char :=
  if c = '"' then ['\\', '"']
  else if c = '\\' then ['\\', '\\']
  else if c = '\x08' then ['\\', 'b']
  else if c = '\x0c' then ['\\', 'f']
  else if c = '\n' then ['\\', 'n']
  else if c = '\r' then ['\\', 'r']
  else if c = '\t' then ['\\', 't']
  else if c.toNat < 0x20 then
    ['\\', 'u', '0', '0', Nat.digitChar (c.toNat / 16), Nat.digitChar (c.toNat % 16)]
  else [c]

def quote (s : String) : List Char := '"' :: (s.toList.flatMap escape ++ ['"'])

mutual

def Value.print : Value → List Char
  | .null => ['n', 'u', 'l', 'l']
  | .bool true => ['t', 'r', 'u', 'e']
  | .bool false => ['f', 'a', 'l', 's', 'e']
  | .num literal => literal.text
  | .str s => quote s
  | .arr items => '[' :: (List.intercalate [','] (printItems items) ++ [']'])
  | .obj members => '\x7b' :: (List.intercalate [','] (printMembers members) ++ ['\x7d'])

def printItems : List Value → List (List Char)
  | [] => []
  | v :: rest => v.print :: printItems rest

def printMembers : List (String × Value) → List (List Char)
  | [] => []
  | (name, v) :: rest => (quote name ++ ':' :: v.print) :: printMembers rest

end

def Value.text (v : Value) : String := .ofList v.print

section Printable

def Printable (text : List Char) : Prop := ∀ c ∈ text, 0x20 ≤ c.toNat

instance : DecidablePred Printable := fun text =>
  List.decidableBAll (fun c : Char => 0x20 ≤ c.toNat) text

theorem Printable.append (h : Printable text) (h' : Printable text') : Printable (text ++ text') :=
  forall_mem_append.mpr ⟨h, h'⟩

theorem Printable.cons (hc : 0x20 ≤ c.toNat) (h : Printable text) : Printable (c :: text) :=
  forall_mem_cons.mpr ⟨hc, h⟩

theorem printable_intercalate (hsep : Printable sep) (h : ∀ text ∈ texts, Printable text) :
    Printable (List.intercalate sep texts) := by
  induction texts with
  | nil => exact forall_mem_nil _
  | cons text texts ih =>
    obtain ⟨htx, htex⟩ := forall_mem_cons.mp h
    cases texts with
    | nil =>
      rw [intercalate_singleton]
      exact htx
    | cons next texts =>
      rw [intercalate_cons_cons]
      exact (Printable.append htx hsep).append (ih htex)

theorem le_toNat_digitChar : ∀ n : Fin 16, 0x20 ≤ (Nat.digitChar n).toNat := by decide

theorem printable_escape (c : Char) : Printable (escape c) := by
  unfold escape
  split_ifs with _ _ _ _ _ _ _ hcon
  · decide
  · decide
  · decide
  · decide
  · decide
  · decide
  · decide
  · have hlow := le_toNat_digitChar ⟨c.toNat % 16, Nat.mod_lt _ (by decide)⟩
    have hhi := le_toNat_digitChar ⟨c.toNat / 16, by omega⟩
    have hdigs : Printable [Nat.digitChar (c.toNat / 16), Nat.digitChar (c.toNat % 16)] :=
      .cons hhi (.cons hlow (forall_mem_nil _))
    have hst : Printable ['\\', 'u', '0', '0'] := by decide
    exact hst.append hdigs
  · exact forall_mem_singleton.mpr (Nat.le_of_not_lt hcon)

theorem printable_quote (s : String) : Printable (quote s) := by
  have hcha : Printable (s.toList.flatMap escape) := by
    intro c hc
    obtain ⟨d, -, hd⟩ := mem_flatMap.mp hc
    exact printable_escape d c hd
  exact .cons (by decide) (hcha.append (by decide))

theorem Literal.printable (l : Literal) : Printable l.text := by
  intro c hc
  have hchar := all_eq_true.mp l.chars c hc
  rw [isNumberChar, Bool.or_eq_true, decide_eq_true_eq] at hchar
  rcases hchar with hdig | hsign
  · simp only [Char.isDigit, Bool.and_eq_true, decide_eq_true_eq, ge_iff_le,
      UInt32.le_iff_toNat_le] at hdig
    exact Nat.le_trans (by decide) hdig.1
  · have hsig : Printable ['-', '+', '.', 'e', 'E'] := by decide
    exact hsig c hsign

mutual

theorem Value.printable_print : ∀ v : Value, Printable v.print
  | .null | .bool true | .bool false => by decide
  | .num literal => literal.printable
  | .str s => printable_quote s
  | .arr items => by
    have hits : Printable (List.intercalate [','] (printItems items)) :=
      printable_intercalate (by decide) (printable_printItems items)
    exact .cons (by decide) (hits.append (by decide))
  | .obj members => by
    have hmem : Printable (List.intercalate [','] (printMembers members)) :=
      printable_intercalate (by decide) (printable_printMembers members)
    exact .cons (by decide) (hmem.append (by decide))

theorem printable_printItems : ∀ items : List Value, ∀ text ∈ printItems items, Printable text
  | [] => forall_mem_nil _
  | v :: rest => forall_mem_cons.mpr ⟨v.printable_print, printable_printItems rest⟩

theorem printable_printMembers :
    ∀ members : List (String × Value), ∀ text ∈ printMembers members, Printable text
  | [] => forall_mem_nil _
  | (name, v) :: rest => by
    have hval : Printable (':' :: v.print) := .cons (by decide) v.printable_print
    exact forall_mem_cons.mpr
      ⟨(printable_quote name).append hval, printable_printMembers rest⟩

end

end Printable

def Value.member? (name : String) : Value → Option Value
  | .obj members =>
    match members.filter (·.1 = name) with
    | [m] => some m.2
    | _ => none
  | _ => none

def Value.at? (v : Value) (path : List String) : Option Value :=
  path.foldlM (fun v name => v.member? name) v

abbrev Reader := Parser Char Unit

def reject : Reader α := throw ()

def isSpace (c : Char) : Bool := c = ' ' || c = '\t' || c = '\n' || c = '\r'

def skipSpace : Reader Unit := skipWhile isSpace

def next : Reader Char := do
  match ← get with
  | [] => reject
  | c :: rest =>
    set rest
    return c

def expect (c : Char) : Reader Unit := do
  if (← next) = c then return () else reject

def word : List Char → Reader Unit
  | [] => return ()
  | c :: rest => do
    expect c
    word rest

def hexValue (c : Char) : Option Nat :=
  if c.isDigit then some (c.toNat - 48)
  else if 'a' ≤ c ∧ c ≤ 'f' then some (c.toNat - 87)
  else if 'A' ≤ c ∧ c ≤ 'F' then some (c.toNat - 55)
  else none

def hexDigit : Reader Nat := do
  match hexValue (← next) with
  | some n => return n
  | none => reject

def hex4 : Reader Nat := do
  let a ← hexDigit
  let b ← hexDigit
  let c ← hexDigit
  let d ← hexDigit
  return ((a * 16 + b) * 16 + c) * 16 + d

/-- Characters outside the basic plane are written as two surrogates. -/
def unicodeEscape : Reader Char := do
  let v ← hex4
  if 0xD800 ≤ v ∧ v < 0xDC00 then
    expect '\\'
    expect 'u'
    let w ← hex4
    if 0xDC00 ≤ w ∧ w < 0xE000 then
      return .ofNat (0x10000 + (v - 0xD800) * 0x400 + (w - 0xDC00))
    else reject
  else if 0xDC00 ≤ v ∧ v < 0xE000 then reject
  else return .ofNat v

def escaped : Reader Char := do
  match ← next with
  | '"' => return '"'
  | '\\' => return '\\'
  | '/' => return '/'
  | 'b' => return '\x08'
  | 'f' => return '\x0c'
  | 'n' => return '\n'
  | 'r' => return '\r'
  | 't' => return '\t'
  | 'u' => unicodeEscape
  | _ => reject

def stringTail : Nat → Reader (List Char)
  | 0 => reject
  | n + 1 => do
    let c ← next
    if c = '"' then return []
    else if c = '\\' then return (← escaped) :: (← stringTail n)
    else if c.toNat < 0x20 then reject
    else return c :: (← stringTail n)

def string : Reader String := do
  expect '"'
  return .ofList (← stringTail (← get).length)

def number : Reader Value := do
  let text := (← get).takeWhile isNumberChar
  if h : isNumber text = true then
    modify (List.dropWhile isNumberChar)
    return .num ⟨text, all_takeWhile, h⟩
  else reject

def more (close : Char) : Reader Bool := do
  skipSpace
  let c ← next
  if c = ',' then return true else if c = close then return false else reject

def listed (item : Reader α) (close : Char) : Reader (List α) := do
  skipSpace
  listedUntil close item (more close) ()

def member (value : Reader Value) : Reader (String × Value) := do
  skipSpace
  let name ← string
  skipSpace
  expect ':'
  return (name, ← value)

/-- Every level of nesting takes a character, so that as much fuel as there are characters is
enough. -/
def value : Nat → Reader Value
  | 0 => reject
  | fuel + 1 => do
    skipSpace
    match (← get).head? with
    | some '\x7b' => do
      expect '\x7b'
      return .obj (← listed (member (value fuel)) '\x7d')
    | some '[' => do
      expect '['
      return .arr (← listed (value fuel) ']')
    | some '"' => return .str (← string)
    | some 't' => do
      word ['t', 'r', 'u', 'e']
      return .bool true
    | some 'f' => do
      word ['f', 'a', 'l', 's', 'e']
      return .bool false
    | some 'n' => do
      word ['n', 'u', 'l', 'l']
      return .null
    | _ => number

def document (fuel : Nat) : Reader Value := do
  let v ← value fuel
  skipSpace
  if (← get).isEmpty then return v else reject

def parse (text : String) : Option Value :=
  match document (text.toList.length + 1) text.toList with
  | .ok (v, _) => some v
  | .error _ => none

end Json
