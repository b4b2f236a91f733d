import Bundler.Text.Decimal

/-!
# Messages

What a run tells its user goes to the error stream, so that the standard output stays free. A
console keeps what was written (`written`), the newest text last, and whether debug messages are
shown. Information always is. Both kinds of messages start with a coloured label and end with a line
feed.
-/

namespace Bundler

namespace Style

/-- The sequences that switch the colours of a terminal. -/
def green : String := "\x1b[92m"
@[inherit_doc green] def red : String := "\x1b[91m"
@[inherit_doc green] def blue : String := "\x1b[94m"
@[inherit_doc green] def bold : String := "\x1b[1m"
@[inherit_doc green] def reset : String := "\x1b[0m"

end Style

/-- A date and a time of day. -/
structure Timestamp where
  year : Nat
  month : Nat
  day : Nat
  hour : Nat
  minute : Nat
  second : Nat
deriving DecidableEq, Repr

/-- A number from 0 to 99 in two digits. -/
def twoDigits (n : Nat) : String :=
  toString (n / 10 % 10) ++ toString (n % 10)

/-- Month, day and year of the century, then the time, all in two digits. -/
def Timestamp.render (time : Timestamp) : String :=
  "/".intercalate ([time.month, time.day, time.year].map twoDigits) ++ " "
    ++ ":".intercalate ([time.hour, time.minute, time.second].map twoDigits)

/-- The error stream of a run. -/
structure Console where
  verbose : Bool := false
  written : List String := []
deriving DecidableEq, Repr

namespace Console

/-- The whole text that was written. -/
def text (console : Console) : String :=
  String.join console.written

/-- Writes a text as it is. -/
def write (console : Console) (text : String) : Console :=
  { console with written := console.written ++ [text] }

/-- Writes an information. -/
def info (console : Console) (message : String) : Console :=
  console.write (Style.green ++ Style.bold ++ "INFO:" ++ Style.reset ++ " " ++ message ++ "\n")

/-- Writes a debug message, if those are shown. -/
def debug (console : Console) (message : String) : Console :=
  if console.verbose then
    console.write (Style.blue ++ "DEBUG:" ++ Style.reset ++ " " ++ message ++ "\n")
  else console

/-- A debug message is not written while those are not shown. -/
theorem debug_of_quiet {console : Console} (h : console.verbose = false) (message : String) :
    console.debug message = console := by
  simp [debug, h]

end Console

end Bundler
