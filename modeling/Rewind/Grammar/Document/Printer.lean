import Rewind.Value.Printer

namespace Rewind.Grammar.Document

/-- The escape of a code unit of sixteen bits. -/
def unitEscape (unit : Nat) : List Char := '\\' :: 'u' :: Text.hex 4 unit

def escapeChar (c : Char) : List Char :=
  let code := c.toNat
  if c = '"' ∨ c = '\\' then ['\\', c]
  else if c = '\n' then ['\\', 'n']
  else if c = '\r' then ['\\', 'r']
  else if c = '\t' then ['\\', 't']
  else if code = 8 then ['\\', 'b']
  else if code = 12 then ['\\', 'f']
  else if 0x20 ≤ code ∧ code < 0x7f then [c]
  else if code ≤ 0xffff then unitEscape code
  else unitEscape (0xd800 + (code - 0x10000) / 0x400) ++
    unitEscape (0xdc00 + (code - 0x10000) % 0x400)

def printText (s : String) : String := "\"" ++ String.ofList (s.toList.flatMap escapeChar) ++ "\""

def newLine (level : Nat) : String := "\n" ++ String.ofList (List.replicate (4 * level) ' ')

/-- Brackets around items, which stand on lines of their own one level further in. -/
def block (opening closing : String) (level : Nat) (items : List String) : String :=
  if items.isEmpty then opening ++ closing
  else
    opening ++ newLine (level + 1) ++ ("," ++ newLine (level + 1)).intercalate items ++
      newLine level ++ closing

mutual

def printAt (level : Nat) : Value → String
  | .none | .op _ => "null"
  | .bool true => "true"
  | .bool false => "false"
  | .int n => toString n
  | .float x => Decimal.write x
  | .str s => printText s
  | .list xs | .tuple xs => block "[" "]" level (printItems (level + 1) xs)
  | .dict es => block "\x7b" "\x7d" level (printEntries (level + 1) es)

def printItems (level : Nat) : List Value → List String
  | [] => []
  | x :: xs => printAt level x :: printItems level xs

def printEntries (level : Nat) : List (Value × Value) → List String
  | [] => []
  | (k, v) :: es => (printKey k ++ ": " ++ printAt level v) :: printEntries level es

def printKey : Value → String
  | .str s => printText s
  | k => printText k.display

end

/-- The text of a whole document. -/
def print (v : Value) : String := printAt 0 v

end Rewind.Grammar.Document
