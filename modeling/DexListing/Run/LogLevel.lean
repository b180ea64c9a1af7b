/-!
# Log levels
-/

set_option autoImplicit false

namespace DexListing

/-- How grave an event is. -/
inductive LogLevel
  | debug
  | info
  | warning
  | error
  | critical
  deriving DecidableEq, Repr

namespace LogLevel

/-- The name of a level. -/
def name : LogLevel → String
  | debug => "DEBUG"
  | info => "INFO"
  | warning => "WARNING"
  | error => "ERROR"
  | critical => "CRITICAL"

/-- The rank of a level among all. -/
def rank : LogLevel → Nat
  | debug => 0
  | info => 1
  | warning => 2
  | error => 3
  | critical => 4

/-- All levels. -/
def all : List LogLevel := [debug, info, warning, error, critical]

/-- The ASCII capital of a character that has one: besides the small ASCII letters these are the
dotless i and the long s. -/
def capital (c : Char) : Char :=
  if 'a' ≤ c && c ≤ 'z' then Char.ofNat (c.toNat - 32)
  else if c = '\u0131' then 'I'
  else if c = '\u017f' then 'S'
  else c

/-- The level that a text names; case does not matter. No level's name holds two letters that one
other character has as its capitals, so capitals of single letters are enough. -/
def ofText? (text : String) : Option LogLevel :=
  all.find? fun level => level.name.toList == text.toList.map capital

end LogLevel

end DexListing
