/-
# Quoted text

A character or a text that a message names is shown between quotes, so that
the reader can tell where it ends and what is in it. Inside, the usual controls,
the backslash and the quote itself are escaped; a character that is combining or
has no shape of its own is spelled by its code point; every other character
stands for itself.

Key definitions: `Text.escape`, `Text.quoteChar`, `Text.quote`, `Text.quoteList`.
-/
import AddressExpr.Hex
import AddressExpr.Text.CharClass

namespace AddressExpr
namespace Text

/-- The letter after the backslash for a control that has one. -/
def controlLetter? (c : Char) : Option Char :=
  if c = '\x00' then some '0'
  else if c = '\t' then some 't'
  else if c = '\n' then some 'n'
  else if c = '\r' then some 'r'
  else none

/-- How the character is written between two characters `delimiter`. -/
def escape (delimiter c : Char) : List Char :=
  match controlLetter? c with
  | some letter => ['\\', letter]
  | none =>
    if c = '\\' ∨ c = delimiter then ['\\', c]
    else if isCombining c || isUnprintable c then
      ['\\', 'u', '\x7b'] ++ Hex.lower c.toNat ++ ['\x7d']
    else [c]

/-- A character between single quotes. -/
def quoteChar (c : Char) : String :=
  String.ofList ('\x27' :: escape '\x27' c ++ ['\x27'])

/-- A text between double quotes. -/
def quote (s : String) : String :=
  String.ofList ('\x22' :: s.toList.flatMap (escape '\x22') ++ ['\x22'])

/-- A list of quoted texts in brackets. -/
def quoteList (texts : List String) : String :=
  "[" ++ ", ".intercalate (texts.map quote) ++ "]"

end Text
end AddressExpr
